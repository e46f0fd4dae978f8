import Verdict.Operator.Name
import Verdict.Operator.Rule

/-!
# Operators

There are three sets of operators: comparisons of two values, connectives that join two conditions,
and negations of one. An operator is a name with a meaning; a comparison carries its rule, a
connective its junction.

Rules are functions and cannot be told apart, so two comparisons count as the same when their names
are (`Comparison.sameAs`).
-/

namespace Verdict

/-! ## 1. The three sets -/

/-- An operator between two operands. -/
structure Comparison where
  name : OperatorName
  rule : Rule

/-- An operator between two conditions. -/
structure Connective where
  name : OperatorName
  junction : Junction
deriving DecidableEq

/-- An operator before one condition. -/
structure Negation where
  name : OperatorName
deriving DecidableEq

/-- Do the comparisons have the same name? -/
def Comparison.sameAs (a b : Comparison) : Bool := a.name == b.name

/-- The truth of a negated condition. -/
def Negation.apply (_ : Negation) (b : Bool) : Bool := !b

/-- What has the name of an operator. -/
class Named (α : Type) where
  name : α → OperatorName

instance : Named Comparison := ⟨Comparison.name⟩
instance : Named Connective := ⟨Connective.name⟩
instance : Named Negation := ⟨Negation.name⟩
instance : Named OperatorName := ⟨id⟩

/-! ## 2. The default operators -/

namespace Comparison

def equal : Comparison := ⟨⟨"==", by decide⟩, Rule.equal⟩
def notEqual : Comparison := ⟨⟨"!=", by decide⟩, Rule.notEqual⟩
def greater : Comparison := ⟨⟨">", by decide⟩, Rule.greater⟩
def greaterOrEqual : Comparison := ⟨⟨">=", by decide⟩, Rule.greaterOrEqual⟩
def less : Comparison := ⟨⟨"<", by decide⟩, Rule.less⟩
def lessOrEqual : Comparison := ⟨⟨"<=", by decide⟩, Rule.lessOrEqual⟩
def listHolds : Comparison := ⟨⟨"<:", by decide⟩, Rule.listHolds⟩
def isInList : Comparison := ⟨⟨"isIn", by decide⟩, Rule.isInList⟩
def contains : Comparison := ⟨⟨"contains", by decide⟩, Rule.contains⟩
def startsWith : Comparison := ⟨⟨"hasPrefix", by decide⟩, Rule.startsWith⟩
def endsWith : Comparison := ⟨⟨"hasSuffix", by decide⟩, Rule.endsWith⟩
def matchesName : OperatorName := ⟨"matches", by decide⟩
def matchesPattern [RegexLibrary] : Comparison := ⟨matchesName, Rule.matchesPattern⟩

/-- The comparisons of the default grammar. -/
def defaults [RegexLibrary] : List Comparison :=
  [equal, notEqual, greater, greaterOrEqual, less, lessOrEqual, listHolds, isInList, contains,
   startsWith, endsWith, matchesPattern]

end Comparison

namespace Connective

def and : Connective := ⟨⟨"&&", by decide⟩, .and⟩
def or : Connective := ⟨⟨"||", by decide⟩, .or⟩

/-- The connectives of the default grammar. -/
def defaults : List Connective := [and, or]

end Connective

namespace Negation

def not : Negation := ⟨⟨"!", by decide⟩⟩

/-- The negations of the default grammar. -/
def defaults : List Negation := [not]

end Negation

end Verdict
