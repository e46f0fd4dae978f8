import Verdict.Text.Ranges

/-!
# Blanks

Lexemes are separated by blanks, items of a list are trimmed of them, and `\s` stands for one. A
blank is a character with the Unicode property White_Space: the plain space, tab and line ends, but
also the no-break space, the next-line control, the ideographic space and the line and paragraph
separators. Zero-width characters and the information separators are not blanks.

* `chunk_append_afterChunk`: cutting a text at its first blank loses nothing.
* `trim_eq_self`: a text with no blank at either end is its own trim.
-/

namespace Verdict.Text

/-! ## 1. The class -/

/-- The ranges of the property White_Space. -/
def blankRanges : List (Nat × Nat) :=
  [(0x9, 0xD), (0x20, 0x20), (0x85, 0x85), (0xA0, 0xA0), (0x1680, 0x1680), (0x2000, 0x200A),
   (0x2028, 0x2029), (0x202F, 0x202F), (0x205F, 0x205F), (0x3000, 0x3000)]

/-- A character that separates lexemes. -/
def isBlank (c : Char) : Bool := inRanges blankRanges c

/-- A text of blanks only. -/
def AllBlank (cs : List Char) : Prop := ∀ c ∈ cs, isBlank c = true

/-! ## 2. Cutting at blanks -/

/-- The text from its first character that is no blank. -/
def skipBlank (cs : List Char) : List Char := cs.dropWhile isBlank

/-- The text up to its first blank. -/
def chunk (cs : List Char) : List Char := cs.takeWhile (!isBlank ·)

/-- The text from its first blank on. -/
def afterChunk (cs : List Char) : List Char := cs.dropWhile (!isBlank ·)

theorem chunk_append_afterChunk (cs : List Char) : chunk cs ++ afterChunk cs = cs :=
  List.takeWhile_append_dropWhile

theorem length_skipBlank_le (cs : List Char) : (skipBlank cs).length ≤ cs.length :=
  (List.dropWhile_suffix _).length_le

/-! ## 3. Trimming -/

/-- The text without the blanks at its two ends. -/
def trim (cs : List Char) : List Char := (skipBlank (skipBlank cs).reverse).reverse

theorem skipBlank_eq_self {cs : List Char} (h : ∀ c, cs.head? = some c → isBlank c = false) :
    skipBlank cs = cs := by
  cases cs with
  | nil => rfl
  | cons c cs => simp only [skipBlank, List.dropWhile_cons, h c rfl, Bool.false_eq_true, ↓reduceIte]

theorem trim_eq_self {cs : List Char} (first : ∀ c, cs.head? = some c → isBlank c = false)
    (last : ∀ c, cs.getLast? = some c → isBlank c = false) : trim cs = cs := by
  have h : skipBlank cs.reverse = cs.reverse :=
    skipBlank_eq_self fun c hc => last c (by rwa [List.head?_reverse] at hc)
  rw [trim, skipBlank_eq_self first, h, List.reverse_reverse]

end Verdict.Text
