import Verdict.Text.Ranges

/-!
# Spans of codes

A set of characters worked out is a list of SPANS: ranges of codes in ascending order, with gaps
between them. Each set has one such list, so that two sets are the same when their spans are.
-/

namespace Verdict.Text

/-- Ranges of codes in ascending order, with gaps between them. -/
abbrev Spans := List (Nat × Nat)

namespace Spans

/-! ## 1. Members -/

/-- Is the code in one of the spans? -/
def has (spans : Spans) (code : Nat) : Bool :=
  spans.any fun span => span.1 ≤ code && code ≤ span.2

/-- The number of codes in the spans. -/
def size (spans : Spans) : Nat := spans.foldl (fun n span => n + (span.2 + 1 - span.1)) 0

/-- The codes in the spans. -/
def codes (spans : Spans) : List Nat :=
  spans.flatMap fun span => List.range' span.1 (span.2 + 1 - span.1)

/-! ## 2. Operations -/

/-- The spans with one more range, which swallows what it meets or touches. -/
def insert (span : Nat × Nat) : Spans → Spans
  | [] => [span]
  | other :: spans =>
    if span.2 + 1 < other.1 then span :: other :: spans
    else if other.2 + 1 < span.1 then other :: insert span spans
    else insert (min span.1 other.1, max span.2 other.2) spans

/-- The spans of some ranges. -/
def ofRanges (ranges : List (Nat × Nat)) : Spans := ranges.foldr insert []

/-- The codes from `least` on that are in none of the spans. -/
def gaps (least : Nat) : Spans → Spans
  | [] => if least ≤ 0x10FFFF then [(least, 0x10FFFF)] else []
  | (first, last) :: spans =>
    if least < first then (least, first - 1) :: gaps (last + 1) spans else gaps (last + 1) spans

/-- The codes in one of two. -/
def join (s t : Spans) : Spans := s.foldr insert t

/-- The codes in both. -/
def meet (s t : Spans) : Spans := gaps 0 (join (gaps 0 s) (gaps 0 t))

/-- The codes in the first and not in the second. -/
def without (s t : Spans) : Spans := gaps 0 (join (gaps 0 s) t)

end Spans

end Verdict.Text
