import Verdict.Text.Blank
import Verdict.Text.CaseFold
import Verdict.Text.Spans
import Verdict.Text.Word

/-!
# Sets of characters

What one position of a pattern can stand for is a set of characters, written with ranges, the named
classes, and the operations on sets. Such a set is kept as it is written; `CharSet.mem` is its
meaning. `CharSet.spans` works a set out, so that two sets written differently can be told to be the
same.
-/

namespace Verdict.Pattern

open Verdict.Text

/-- A set of characters, as it is written. -/
inductive CharSet
  | none
  | range (first last : Char)
  | digit
  | blank
  | word
  | union (s t : CharSet)
  | inter (s t : CharSet)
  | differ (s t : CharSet)
  | complement (s : CharSet)
  | anyCase (s : CharSet)
deriving DecidableEq

namespace CharSet

/-! ## 1. The meaning -/

/-- Does the set hold the character? -/
def mem : CharSet → Char → Bool
  | none, _ => false
  | range first last, c => first ≤ c && c ≤ last
  | digit, c => isWordDigit c
  | blank, c => isBlank c
  | word, c => isWordChar c
  | union s t, c => s.mem c || t.mem c
  | inter s t, c => s.mem c && t.mem c
  | differ s t, c => s.mem c != t.mem c
  | complement s, c => !s.mem c
  | anyCase s, c => (caseVariants c).any s.mem

/-! ## 2. Sets with a name -/

/-- The set of one character. -/
def single (c : Char) : CharSet := range c c

/-- All characters. -/
def any : CharSet := complement none

/-- All characters but the end of a line. -/
def anyInLine : CharSet := complement (single '\n')

/-- What is in one set and not in the other. -/
def difference (s t : CharSet) : CharSet := inter s (complement t)

/-- Is the set plainly one that makes no difference of case? -/
def ignoresCase : CharSet → Bool
  | none => true
  | anyCase _ => true
  | complement s => s.ignoresCase
  | union s t | inter s t | differ s t => s.ignoresCase && t.ignoresCase
  | _ => false

/-- The set without regard to case. -/
def ignoringCase (s : CharSet) : CharSet := if s.ignoresCase then s else anyCase s

/-- The union of ranges. -/
def ofRanges (ranges : List (Char × Char)) : CharSet :=
  ranges.foldr (fun r s => union (range r.1 r.2) s) none

/-- The classes that are written `[:name:]`; they hold ASCII characters only. -/
def posixClasses : List (String × List (Char × Char)) :=
  [("alnum", [('0', '9'), ('A', 'Z'), ('a', 'z')]),
   ("alpha", [('A', 'Z'), ('a', 'z')]),
   ("ascii", [('\x00', '\x7F')]),
   ("blank", [('\t', '\t'), (' ', ' ')]),
   ("cntrl", [('\x00', '\x1F'), ('\x7F', '\x7F')]),
   ("digit", [('0', '9')]),
   ("graph", [('!', '~')]),
   ("lower", [('a', 'z')]),
   ("print", [(' ', '~')]),
   ("punct", [('!', '/'), (':', '@'), ('[', '\x60'), ('\x7B', '~')]),
   ("space", [('\t', '\r'), (' ', ' ')]),
   ("upper", [('A', 'Z')]),
   ("word", [('0', '9'), ('A', 'Z'), ('_', '_'), ('a', 'z')]),
   ("xdigit", [('0', '9'), ('A', 'F'), ('a', 'f')])]

end CharSet

/-! ## 3. Sets worked out -/

namespace CharSet

/-- The codes of a class of patterns, given the ranges of the property it stands for. -/
def classSpans (ranges : List (Nat × Nat)) : Spans :=
  (Spans.ofRanges ranges).without (Spans.ofRanges latestRanges)

/-- The codes of the variants of some characters, from the smaller of two sides: those characters or
    the characters that have variants. -/
def variants (spans : Spans) : Spans :=
  let chars :=
    if spans.size ≤ 500 then (spans.codes.map Char.ofNat).flatMap caseVariants
    else
      foldRuns.flatMap fun run =>
        (List.range ((run.2.1 - run.1) / run.2.2.1 + 1)).flatMap fun k =>
          let group := caseVariants (Char.ofNat (run.1 + k * run.2.2.1))
          if group.any fun c => spans.has c.toNat then group else []
  Spans.ofRanges (chars.map fun c => (c.toNat, c.toNat))

/-- The set worked out. -/
def spans : CharSet → Spans
  | none => []
  | range first last => [(first.toNat, last.toNat)]
  | digit => classSpans decimalDigitRanges
  | blank => Spans.ofRanges blankRanges
  | word => classSpans (alphabeticRanges ++ decimalDigitRanges ++ wordJoinRanges)
  | union s t => s.spans.join t.spans
  | inter s t => s.spans.meet t.spans
  | differ s t => (s.spans.without t.spans).join (t.spans.without s.spans)
  | complement s => s.spans.gaps 0
  | anyCase s => let spans := s.spans; spans.join (variants spans)

/-- Do the two sets hold the same characters? -/
def same (s t : CharSet) : Bool := s == t || s.spans == t.spans

end CharSet

end Verdict.Pattern
