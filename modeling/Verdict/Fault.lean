import Verdict.Operator.Junction

/-!
# What can be wrong with a condition

A fault is the cause for which reading or evaluating a condition was given up; the first one ends the
work. Each cause carries what its message speaks of, and `Fault.message` puts it into words.

A comparison rule that is not one of the library's may refuse its operands in its own words; for
that the causes with details have a last case `stated`.
-/

namespace Verdict

/-! ## 1. Causes -/

/-- Why an element cannot stand where it does. Elements are given by their text. -/
inductive ChainFault
  | noLeftSide (junction : Junction)
  | notJoined (left right : Bool)
  | cannotFollow (previous element : String)
  | cannotNegate (element : String)
  | cannotEndWith (element : String)
  | notOneElement (count : Nat)
  | noTruth (element : String)
  | noTruthValue (name value : String)
  | stated (text : String)
deriving DecidableEq

/-- Why a condition, or a comparison in it, is not whole. -/
inductive ShapeFault
  | nothing
  | notFollowed (value : Bool)
  | endsWith (junction : Junction)
  | leftOpen (count : Nat)
  | notThreeElements (count : Nat)
  | notComparison (element : String)
  | noOperand (left operator right : String)
  | noVariable (left operator right : String)
  | stated (text : String)
deriving DecidableEq

/-- Why an operand cannot be used by a rule. -/
inductive OperandFault
  | notPattern (text : String)
  | stated (text : String)
deriving DecidableEq

/-- Why a condition cannot be read or evaluated. -/
inductive Fault
  | empty
  | unknownElement (text : String)
  | badName (text : String)
  | badQuotation (text : String)
  | badChain (cause : ChainFault)
  | badShape (cause : ShapeFault)
  | undefinedVariable (name : String)
  | unbalancedBrackets
  | typeMismatch
  | unsupportedTypes
  | badOperand (cause : OperandFault)
  | badOperatorName (name : String)
  | badNamePattern (reason : String)
deriving DecidableEq

/-! ## 2. Messages -/

/-- The word for a truth value. -/
def truthWord (b : Bool) : String := if b then "true" else "false"

def ChainFault.message : ChainFault → String
  | noLeftSide junction =>
    let word := junction.word
    s!"the logic operator '{word}' has no left operand"
  | notJoined left right =>
    let l := truthWord left
    let r := truthWord right
    s!"'{l}' and '{r}' are not separated by a logic operator"
  | cannotFollow previous element => s!"chaining '{previous}' with '{element}' is invalid"
  | cannotNegate element =>
    s!"only a variable or an opening bracket can follow a prefix operator, found '{element}'"
  | cannotEndWith element => s!"the expression cannot end with '{element}'"
  | notOneElement count => s!"single boolean expression with {count} elements"
  | noTruth element => s!"'{element}' cannot be evaluated as a boolean on its own"
  | noTruthValue name value => s!"the variable '{name}' has no boolean value: '{value}'"
  | stated text => text

def ShapeFault.message : ShapeFault → String
  | nothing => "nothing to evaluate"
  | notFollowed value =>
    let word := truthWord value
    s!"'{word}' is not followed by a logic operator"
  | endsWith junction =>
    let word := junction.word
    s!"the expression ends with the logic operator '{word}'"
  | leftOpen count => s!"{count} bracket(s) left open"
  | notThreeElements count => s!"a comparison needs exactly three elements, got {count}"
  | notComparison element => s!"'{element}' is not a comparison operator"
  | noOperand left operator right =>
    s!"the comparison '{left} {operator} {right}' needs an operand on both sides"
  | noVariable left operator right =>
    s!"the comparison '{left} {operator} {right}' has no variable operand"
  | stated text => text

def OperandFault.message : OperandFault → String
  | notPattern text => s!"The regular expression '{text}' is invalid"
  | stated text => text

/-- What is said about a fault. -/
def Fault.message : Fault → String
  | empty => "the expression should not be empty"
  | unknownElement text => s!"incorrect element in the expression: \"{text}\""
  | badName text => s!"invalid variable name or element: \"{text}\""
  | badQuotation text => s!"invalid string quotation: {text}"
  | badChain cause => "invalid elements chaining: " ++ cause.message
  | badShape cause => "invalid expression: " ++ cause.message
  | undefinedVariable name => s!"undefined variable: {name}"
  | unbalancedBrackets => "the expression contains unbalanced brackets"
  | typeMismatch => "the types of the two operands mismatch"
  | unsupportedTypes => "the operator cannot be applied to operands of these types"
  | badOperand cause => "invalid operand: " ++ cause.message
  | badOperatorName name => s!"invalid operator name: \"{name}\""
  | badNamePattern reason => s!"invalid variable pattern: {reason}"

/-- The piece of the source that a fault is about, if it names one. -/
def Fault.offendingText? : Fault → Option String
  | unknownElement text | badName text | badQuotation text | undefinedVariable text => some text
  | _ => none

end Verdict
