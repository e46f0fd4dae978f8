import Verdict.Element
import Verdict.Lookup

/-!
# The truth of a comparison and of a variable

A comparison needs a variable on at least one side. The other side decides how the value of the
variable is read: as a number or a truth value if a literal of that kind stands there, as it is if a
text literal does. Two variables are compared as numbers if both read as numbers, else as truth
values if both do, else as texts.

A variable by itself has to hold a truth value.
-/

namespace Verdict

/-! ## 1. Variables -/

/-- The value of a variable; a name without a value is a fault. -/
def Lookup.resolve (lookup : Lookup) (name : String) : Except Fault String :=
  match lookup name with
  | some value => .ok value
  | none => .error (.undefinedVariable name)

/-- The truth value a text stands for. -/
def readTruthText? (text : String) : Option Bool :=
  if text = "true" then some true else if text = "false" then some false else none

/-- The truth of elements that should be one variable with a truth value. -/
def truthOf (lookup : Lookup) : List Element → Except Fault Bool
  | [.operand (.var name)] => do
    let value ← lookup.resolve name
    match readTruthText? value with
    | some b => .ok b
    | none => .error (.badChain (.noTruthValue name value))
  | [e] => .error (.badChain (.noTruth e.text))
  | es => .error (.badChain (.notOneElement es.length))

/-! ## 2. Reading a value as a literal is -/

/-- The values of two variables, read alike. -/
def alike (a b : String) : Value × Value :=
  match Number.read? a.toList, Number.read? b.toList with
  | some x, some y => (.number x, .number y)
  | _, _ =>
    match readTruthText? a, readTruthText? b with
    | some p, some q => (.truth p, .truth q)
    | _, _ => (.text a, .text b)

/-- The value of a variable beside another operand, each as the rule is given it. -/
def coerce (lookup : Lookup) (value : String) : Operand → Except Fault (Value × Value)
  | .text body => .ok (.text value, .text body)
  | .number y =>
    match Number.read? value.toList with
    | some x => .ok (.number x, .number y)
    | none => .error .typeMismatch
  | .truth q =>
    match readTruthText? value with
    | some p => .ok (.truth p, .truth q)
    | none => .error .typeMismatch
  | .var other => (lookup.resolve other).map (alike value)

/-! ## 3. Comparisons -/

/-- The truth of a comparison of two operands. -/
def compareOperands (lookup : Lookup) (left : Operand) (operator : Comparison) (right : Operand) :
    Except Fault Bool :=
  match left, right with
  | .var name, other => do
    let value ← lookup.resolve name
    let (a, b) ← coerce lookup value other
    operator.rule a b
  | other, .var name => do
    let value ← lookup.resolve name
    let (b, a) ← coerce lookup value other
    operator.rule a b
  | _, _ =>
    .error (.badShape (.noVariable left.toText operator.name.text right.toText))

/-- The truth of elements that should be a comparison. -/
def comparisonOf (lookup : Lookup) : List Element → Except Fault Bool
  | [left, .comparison operator, right] =>
    match left, right with
    | .operand l, .operand r => compareOperands lookup l operator r
    | _, _ => .error (.badShape (.noOperand left.text operator.name.text right.text))
  | [_, e, _] => .error (.badShape (.notComparison e.text))
  | es => .error (.badShape (.notThreeElements es.length))

end Verdict
