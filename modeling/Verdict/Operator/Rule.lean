import Verdict.Fault
import Verdict.Number.Shortest
import Verdict.Operator.ItemList
import Verdict.Regex.Basic
import Verdict.Text.Search

/-!
# Comparison rules

A rule decides a comparison of two values, or refuses it. The rules of this file refuse values of
different types, and each names the types it can compare: all three for equality, texts and numbers
for the orders, texts for the rest.

Texts are ordered by the codes of their characters. A number that is none is in no order with
anything, so that each order is false of it and inequality is true.
-/

namespace Verdict

/-! ## 1. Values -/

/-- What a rule compares: a text, a number or a truth value. -/
inductive Value
  | text (s : String)
  | number (x : Number)
  | truth (b : Bool)
deriving DecidableEq

/-- A decision about two values, or the fault for which there is none. -/
abbrev Rule := Value → Value → Except Fault Bool

namespace Rule

/-! ## 2. Equality and order -/

/-- The two values are the same. -/
def equal : Rule
  | .text a, .text b => .ok (a == b)
  | .number x, .number y => .ok (x.sameAs y)
  | .truth a, .truth b => .ok (a == b)
  | _, _ => .error .unsupportedTypes

/-- The two values differ. -/
def notEqual : Rule := fun a b => (equal a b).map (!·)

/-- The two values are in an order that is accepted. -/
def ordered (accept : Ordering → Bool) : Rule
  | .text a, .text b => .ok (accept (compare a b))
  | .number x, .number y => .ok ((x.compare? y).any accept)
  | _, _ => .error .unsupportedTypes

def greater : Rule := ordered Ordering.isGT

def greaterOrEqual : Rule := ordered Ordering.isGE

def less : Rule := ordered Ordering.isLT

def lessOrEqual : Rule := ordered Ordering.isLE

/-! ## 3. Texts -/

/-- Two texts pass a test. -/
def onTexts (test : String → String → Bool) : Rule
  | .text a, .text b => .ok (test a b)
  | _, _ => .error .unsupportedTypes

/-- The list on the left holds the item on the right. -/
def listHolds : Rule := onTexts holdsItem

/-- The item on the left is in the list on the right. -/
def isInList : Rule := onTexts fun item list => holdsItem list item

/-- The text on the right occurs in the one on the left. -/
def contains : Rule := onTexts fun a b => Text.occursIn b.toList a.toList

/-- The text on the left begins with the one on the right. -/
def startsWith : Rule := onTexts fun a b => b.toList.isPrefixOf a.toList

/-- The text on the left ends with the one on the right. -/
def endsWith : Rule := onTexts fun a b => b.toList.isSuffixOf a.toList

/-- The text on the left matches the expression on the right, put between the two ends. -/
def matchesPattern [RegexLibrary] : Rule
  | .text value, .text pattern =>
    match RegexLibrary.compile? (Regex.anchored pattern.toList) with
    | some re => .ok (re.isMatch value.toList)
    | none => .error (.badOperand (.notPattern pattern))
  | _, _ => .error .unsupportedTypes

end Rule

end Verdict
