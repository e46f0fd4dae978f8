import Verdict.Text.Blank
import Verdict.Text.Escape

/-!
# Lists of items

A text can hold a list: its items stand between the commas that are not escaped, without the blanks
around them. Escapes stay in the items as they are written. Every text is a list of at least one
item, which is empty for the empty text.
-/

namespace Verdict

/-- The items of a list, in order. -/
def itemsOf (list : String) : List String :=
  (Text.splitUnescaped ',' false list.toList).map fun piece => String.ofList (Text.trim piece)

/-- Is the text one of the items? -/
def holdsItem (list item : String) : Bool := (itemsOf list).any (· == item)

theorem holdsItem_iff (list item : String) : holdsItem list item = true ↔ item ∈ itemsOf list := by
  simp only [holdsItem, List.any_eq_true, beq_iff_eq]
  exact ⟨fun ⟨_, h, e⟩ => e ▸ h, fun h => ⟨item, h, rfl⟩⟩

end Verdict
