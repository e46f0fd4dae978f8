/-!
# Classes of characters as ranges

A Unicode property is kept as the list of the ranges that make it up, in ascending order. This file
fixes the READING of such a list: a character has the property when its code lies in one of the
ranges, both ends included.

* `inRanges_iff`: membership says there is such a range.
-/

namespace Verdict.Text

/-! ## 1. Membership -/

/-- Does the code of `c` lie in one of the ranges? -/
def inRanges (ranges : List (Nat × Nat)) (c : Char) : Bool :=
  ranges.any fun range => range.1 ≤ c.toNat && c.toNat ≤ range.2

theorem inRanges_iff (ranges : List (Nat × Nat)) (c : Char) :
    inRanges ranges c = true ↔ ∃ range ∈ ranges, range.1 ≤ c.toNat ∧ c.toNat ≤ range.2 := by
  simp only [inRanges, List.any_eq_true, Bool.and_eq_true, decide_eq_true_eq]

end Verdict.Text
