import Verdict.Fault
import Verdict.Text.Blank
import Verdict.Text.Search

/-!
# Reports

A report shows the line of the source that a fault is about, with a mark under the stretch in
question. The stretch is searched for in the source: the text that the fault names, where it stands
by itself, between the ends of the source, blanks, brackets and `!`. A fault that names no text, or
one that stands nowhere by itself, is about the whole source. Places are counted in characters.

Only the line where the stretch begins is shown; the mark is as long as the stretch.

* `stop_spanIn_le`: the stretch lies in the source.
-/

namespace Verdict

open Text

/-! ## 1. The stretch -/

/-- A stretch of a source, from a place up to another. -/
structure Span where
  start : Nat
  stop : Nat
deriving DecidableEq

/-- A character that a lexeme may stand beside without being part of a longer one. -/
def separates (c : Char) : Bool := isBlank c || c == '(' || c == ')' || c == '!'

/-- Does the stretch stand by itself? -/
def standsAlone (source : List Char) (start stop : Nat) : Bool :=
  (start == 0 || source[start - 1]?.all separates) && source[stop]?.all separates

/-- The stretch of a source that a fault is about. -/
def Fault.spanIn (source : String) (fault : Fault) : Span :=
  let cs := source.toList
  let whole : Span := ⟨0, cs.length⟩
  match fault.offendingText? with
  | none => whole
  | some text =>
    let needle := text.toList
    if needle.isEmpty then whole
    else
      match (places needle cs).find? fun start => standsAlone cs start (start + needle.length) with
      | some start => ⟨start, start + needle.length⟩
      | none => whole

theorem stop_spanIn_le (source : String) (fault : Fault) :
    (fault.spanIn source).stop ≤ source.toList.length := by
  simp only [Fault.spanIn]
  split
  · exact Nat.le_refl _
  · rename_i text _
    split
    · exact Nat.le_refl _
    · rename_i hne
      split
      · rename_i start hf
        have hn : text.toList ≠ [] := fun h => hne (by rw [h]; rfl)
        exact le_length_of_mem_places hn (List.mem_of_find?_eq_some hf)
      · exact Nat.le_refl _

/-! ## 2. Lines -/

/-- A character that ends a line. -/
def isLineEnd (c : Char) : Bool :=
  c == '\n' || c == '\r' || c == '\x0B' || c == '\x0C' || c == '\x85' || c == '\u2028' ||
    c == '\u2029'

/-- The lines of a source, each with what ends it. A carriage return and a line feed are one end. -/
def sourceLines : List Char → List (List Char × List Char)
  | [] => [([], [])]
  | '\r' :: '\n' :: cs => ([], ['\r', '\n']) :: sourceLines cs
  | c :: cs =>
    if isLineEnd c then ([], [c]) :: sourceLines cs
    else
      match sourceLines cs with
      | (line, ending) :: lines => (c :: line, ending) :: lines
      | [] => [([c], [])]

/-- The line that holds a place: its number from 1 on, its text, and the place in it. A place behind
    the last line is put at the end of that line. -/
def lineAt (number place : Nat) : List (List Char × List Char) → Nat × List Char × Nat
  | [] => (number, [], 0)
  | [(line, _)] => (number, line, place)
  | (line, ending) :: lines =>
    let length := line.length + ending.length
    if place < length then (number, line, place) else lineAt (number + 1) (place - length) lines

/-! ## 3. The report -/

/-- A line as it is shown: every blank is shown as a plain space. -/
def shownLine (line : List Char) : String :=
  String.ofList (line.map fun c => if isBlank c then ' ' else c)

/-- A character several times. -/
def times (n : Nat) (c : Char) : String := String.ofList (List.replicate n c)

/-- **The report of a fault** about a source text. -/
def Fault.report (source : String) (fault : Fault) : String :=
  let span := fault.spanIn source
  let length := span.stop - span.start
  let (number, line, column) := lineAt 1 span.start (sourceLines source.toList)
  let label := toString number
  let margin := times (label.length + 2) ' '
  let half := length / 2
  let mark :=
    if length = 0 then "│"
    else times column ' ' ++ times half '─' ++ "┬" ++ times (length - half - 1) '─'
  let arrow :=
    if length = 0 then "╰─ "
    else times (column + half) ' ' ++ "╰" ++ times (length + 1 - half) '─' ++ " "
  let place := toString (column + 1)
  String.intercalate "\n"
    ["Error: Evaluation error",
     s!"{margin}╭─[ expression:{label}:{place} ]",
     s!"{margin}│",
     s!" {label} │ " ++ shownLine line,
     s!"{margin}│ {mark}",
     s!"{margin}│ {arrow}" ++ fault.message,
     times (label.length + 2) '─' ++ "╯",
     ""]

end Verdict
