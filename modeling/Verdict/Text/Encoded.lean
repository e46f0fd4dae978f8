import Verdict.Text.Spans

/-!
# Characters as bytes

In UTF-8 a code takes one to four bytes: the first says how many follow, and each that follows carries
six bits. The characters of a range are those whose bytes run through one of a few sequences of byte
ranges. `encoded` lists these sequences, least codes first.
-/

namespace Verdict.Text

/-- A range of bytes. -/
abbrev ByteRange := Nat × Nat

/-- The sequences for the values from `first` to `last`, which have a first byte, to which `lead` is
    added, and `k` bytes of six bits behind it. Only behind a single first byte may the others not run
    through all values. -/
def byteRanges (lead : Nat) : Nat → Nat → Nat → List (List ByteRange)
  | 0, first, last => [[(lead + first, lead + last)]]
  | k + 1, first, last =>
    let block := 1 <<< (6 * (k + 1))
    let low := first / block
    let high := last / block
    let within (value first last : Nat) : List (List ByteRange) :=
      (byteRanges 0x80 k first last).map ((lead + value, lead + value) :: ·)
    if low = high then within low (first % block) (last % block)
    else
      let lowPart := if first % block = 0 then [] else within low (first % block) (block - 1)
      let highPart := if last % block = block - 1 then [] else within high 0 (last % block)
      let low := if first % block = 0 then low else low + 1
      let high := if last % block = block - 1 then high else high - 1
      let full : List (List ByteRange) :=
        if low ≤ high then [(lead + low, lead + high) :: List.replicate (k + 1) (0x80, 0xBF)] else []
      lowPart ++ full ++ highPart

/-- The ranges of codes that take the same number of bytes, with the first code, the last code, the
    number of bytes behind the first one, and what is added to that one. Between the third and the
    fourth no characters lie. -/
def codeLengths : List (Nat × Nat × Nat × Nat) :=
  [(0, 0x7F, 0, 0), (0x80, 0x7FF, 1, 0xC0), (0x800, 0xD7FF, 2, 0xE0), (0xE000, 0xFFFF, 2, 0xE0),
   (0x10000, 0x10FFFF, 3, 0xF0)]

/-- The sequences of byte ranges for the characters in some spans. -/
def encoded (spans : Spans) : List (List ByteRange) :=
  spans.flatMap fun span =>
    codeLengths.flatMap fun (first, last, k, lead) =>
      let first := max first span.1
      let last := min last span.2
      if first ≤ last then byteRanges lead k first last else []

end Verdict.Text
