import Verdict.Pattern.Reader.Escape

/-!
# Reading a pattern

A pattern is read one character at a time by a machine with a stack: the groups that are open, what
has been read of the innermost one, and a MODE that says what the next character continues. There is
no looking ahead, so the reading of a text is the fold of `step` over it.

The language has literals, `.`, sets in square brackets with ranges, nesting, the `[:name:]` classes
and the operations `&&`, `--` and `~~`; `\d`, `\s`, `\w` and their complements for all scripts;
choices, groups with or without a name; repetitions `*`, `+`, `?`, `{n}`, `{n,}`, `{n,m}`, each also
lazy; the edges `^`, `$`, `\A`, `\z`, `\b`, `\B` and the word edges; characters by escape or code;
and the flags `i`, `m`, `s`, `U`, `x` and `u`. There is no looking around and no reference back to a
group. Properties by name (`\p`) are not part of it, and `u` cannot be switched off.

A text that is no pattern has no reading; nothing is said about where it fails. Nor has the text of a
pattern that is nested too deeply or takes too much room.
-/

namespace Verdict.Pattern

open Verdict.Text

namespace State

/-! ## 1. Steps -/

/-- A character between two items. -/
def stepItem (s : State) (recent : Recent) (c : Char) : Option State :=
  match c with
  | '(' => some s.openGroup
  | ')' => s.closeGroup
  | '|' => some s.nextBranch
  | '[' => some (s.inSet {} [] (.start true))
  | '?' =>
    if recent == .repetition || recent == .counted then some s.swapGreed
    else s.repeatLast 0 (some 1) .repetition
  | '*' => s.repeatLast 0 none .repetition
  | '+' => s.repeatLast 1 none .repetition
  | '{' =>
    if s.last?.isSome then some { s with mode := .braces [] (recent == .boundary) } else none
  | '\\' => some { s with mode := .escape .pattern }
  | '.' => some (s.push (.chars (if s.flags.dotAll then .any else .anyInLine)) 0)
  | '^' => some (s.push (.edge (if s.flags.multiLine then .lineStart else .textStart)) 0)
  | '$' => some (s.push (.edge (if s.flags.multiLine then .lineEnd else .textEnd)) 0)
  | c => some (s.push (s.literal c) 0)

/-- A character of a list of flags, which ends the list or belongs to it. -/
def stepFlags (s : State) (list : FlagList) (c : Char) : Option State :=
  match c with
  | ':' =>
    if list.dangling then none
    else some { s with
      frame := { s.frame with wrap := .plain }
      flags := list.flags
      mode := .items .other }
  | ')' => if list.dangling || list.seen.isEmpty then none else s.setFlags list.flags
  | c => (list.read? c).map fun list => { s with mode := .groupFlags list }

/-- A character of a group name, or the angle bracket that ends it. -/
def stepName (s : State) (name : List Char) (c : Char) : Option State :=
  if c == '>' then s.nameGroup (String.ofList name)
  else if isNameChar name.isEmpty c then some { s with mode := .groupName (name ++ [c]) }
  else none

/-- A character in the mode of the machine. -/
def stepMode (s : State) (c : Char) : Option State :=
  match s.mode with
  | .items recent => s.stepItem recent c
  | .braces content boundary =>
    if c == '\x7D' then s.closeBraces content boundary
    else some { s with mode := .braces (content ++ [c]) boundary }
  | .groupStart => if c == '?' then some { s with mode := .groupKind } else s.stepItem .other c
  | .groupKind =>
    if c == 'P' then some { s with mode := .groupNamed }
    else if c == '<' then some { s with mode := .groupAngle }
    else s.stepFlags { flags := s.flags } c
  | .groupNamed => if c == '<' then some { s with mode := .groupName [] } else none
  | .groupAngle => s.stepName [] c
  | .groupName name => s.stepName name c
  | .groupFlags list => s.stepFlags list c
  | .escape target => s.stepEscape target c
  | .hexStart target width =>
    if c == '\x7B' then some { s with mode := .hexBraces target none }
    else s.stepHexDigit target width 0 c
  | .hexDigits target left value => s.stepHexDigit target left value c
  | .hexBraces target value =>
    if c == '\x7D' then value.bind (s.deliverCode target)
    else (hexValue? c).map fun d =>
      { s with mode := .hexBraces target (some (16 * value.getD 0 + d)) }
  | .set inner outer mode => s.stepSet inner outer c mode

/-- The mode after a blank or a comment where these are passed over; none where they count. -/
def Mode.afterSpace? : Mode → Option Mode
  | .items .counted => some (.items .counted)
  | .items _ => some (.items .other)
  | .set inner outer (.twin c) => some (.set inner outer (.after (.char c)))
  | .set inner outer (.dash item _) => some (.set inner outer (.dash item true))
  | .escape _ | .groupKind | .groupNamed | .groupAngle | .groupName _ | .groupFlags _ => none
  | mode => some mode

/-- A character, passing over blanks and comments where the flag `x` is in force. -/
def stepSpaced (s : State) (c : Char) : Option State :=
  if s.flags.ignoreSpace && (isBlank c || c == '#') then
    match Mode.afterSpace? s.mode with
    | some mode => some { s with mode := mode, comment := c == '#' }
    | none => s.stepMode c
  else s.stepMode c

/-- A character where `[:name:]` may be going on: the class takes the place of the set begun at the
    `[` once its last character is read. -/
def stepBracketed (s : State) (b : Bracketed) (c : Char) : Option State :=
  let chars := b.chars ++ [c]
  let classes := bracketedClasses s.flags.ignoreCase
  match classes.find? fun entry => entry.1 == chars with
  | some entry =>
    some { s.inSet (b.inner.add (.cls { set := entry.2 })) b.outer .item with bracketed := none }
  | none =>
    if classes.any fun entry => chars.isPrefixOf entry.1 then
      ({ s with bracketed := some { b with chars := chars } }).stepSpaced c
    else ({ s with bracketed := none }).stepSpaced c

/-- **One character.** -/
def step (s : State) (c : Char) : Option State :=
  if s.comment then some (if c == '\n' then { s with comment := false } else s)
  else
    match s.bracketed with
    | some b => s.stepBracketed b c
    | none => s.stepSpaced c

/-- The state after a text. -/
def run (s : State) (cs : List Char) : Option State := cs.foldlM step s

/-- The pattern that has been read from a text, if this may end here: no group and no bracket open,
    nothing half read, and neither too deep nor too large. -/
def finish? (s : State) (source : List Char) : Option Pattern :=
  match s.outer, s.mode with
  | [], .items _ =>
    let content := s.frame.content
    if content.depth ≤ depthLimit && content.node.fits then
      some ⟨source, content.node, s.names⟩
    else none
  | _, _ => none

end State

/-! ## 2. Reading -/

/-- The pattern a text stands for, if it is a pattern. -/
def read? (cs : List Char) : Option Pattern := (State.initial.run cs).bind (·.finish? cs)

theorem source_of_read? {cs : List Char} {pattern : Pattern} (h : read? cs = some pattern) :
    pattern.source = cs := by
  obtain ⟨s, -, hfinish⟩ := Option.bind_eq_some_iff.mp h
  unfold State.finish? at hfinish
  split at hfinish
  · simp only [Option.ite_none_right_eq_some, Option.some.injEq] at hfinish
    rw [← hfinish.2]
  · cases hfinish

end Verdict.Pattern
