import Verdict.Operator.Basic

/-!
# Elements

A condition is a sequence of elements: operators, brackets and operands. An operand is a literal, or
the name of a variable whose value is known only when the condition is evaluated.

Each element has a text (`Element.text`). A text literal is put between single quotes unless a single
quote in it is not escaped; then double quotes take their place. Escapes stay as they are written.
-/

namespace Verdict

/-! ## 1. Kinds of elements -/

inductive Bracket
  | opening
  | closing
deriving DecidableEq

/-- A literal or the name of a variable. -/
inductive Operand
  | var (name : String)
  | text (body : String)
  | number (x : Number)
  | truth (b : Bool)
deriving DecidableEq

/-- One unit of a condition. -/
inductive Element
  | comparison (operator : Comparison)
  | connective (operator : Connective)
  | negation (operator : Negation)
  | bracket (b : Bracket)
  | operand (o : Operand)

/-! ## 2. Texts -/

/-- The text of a bracket. -/
def Bracket.text : Bracket → String
  | opening => "("
  | closing => ")"

/-- The bracket a text stands for. -/
def Bracket.ofString? (text : String) : Option Bracket :=
  if text = "(" then some opening else if text = ")" then some closing else none

theorem Bracket.ofString?_text (b : Bracket) : ofString? b.text = some b := by
  cases b <;> decide

/-- The quote a text literal is put between. -/
def quoteFor (body : String) : Char :=
  if Text.hasUnescaped '\'' false body.toList then '"' else '\''

/-- The characters of an operand. -/
def Operand.chars : Operand → List Char
  | var name => name.toList
  | text body => quoteFor body :: body.toList ++ [quoteFor body]
  | number x => x.write
  | truth b => (truthWord b).toList

/-- The characters of an element. -/
def Element.chars : Element → List Char
  | comparison operator => operator.name.chars
  | connective operator => operator.name.chars
  | negation operator => operator.name.chars
  | bracket b => b.text.toList
  | operand o => o.chars

/-- The text of an operand. -/
def Operand.toText (o : Operand) : String := String.ofList o.chars

/-- The text of an element. -/
def Element.text (e : Element) : String := String.ofList e.chars

/-! ## 3. Sameness -/

/-- Are the operands the same? Numbers count by their place, so that the two zeros are the same and
    the one that is no number differs from itself. -/
def Operand.sameAs : Operand → Operand → Bool
  | var a, var b => a == b
  | text a, text b => a == b
  | number x, number y => x.sameAs y
  | truth a, truth b => a == b
  | _, _ => false

/-- Are the elements the same? Comparisons count by their names. -/
def Element.sameAs : Element → Element → Bool
  | comparison a, comparison b => a.sameAs b
  | connective a, connective b => a == b
  | negation a, negation b => a == b
  | bracket a, bracket b => a == b
  | operand a, operand b => a.sameAs b
  | _, _ => false

end Verdict
