import Verdict.Pattern.Reader.State

/-!
# Sets in square brackets

Inside square brackets stand characters, ranges, classes and further brackets, and between them the
operations `&&` (in both sets), `--` (in the left one only) and `~~` (in exactly one), which take all
that stands before them in the bracket as their left side.

A `]` that comes first, and a `-` that comes first, last or before nothing it could begin a range to,
stand for themselves. Case is ignored on both sides of an operation and in the whole bracket, before
its complement is taken.
-/

namespace Verdict.Pattern

/-! ## 1. The set read so far -/

namespace SetFrame

/-- The set of an item. -/
def itemSet : SetItem → NestedSet
  | .char c => { set := .single c }
  | .cls set => set

/-- The bracket with one more item. -/
def add (frame : SetFrame) (item : SetItem) : SetFrame :=
  let item := itemSet item
  { frame with
    items := ⟨.union frame.items.set item.set, max frame.items.depth item.depth⟩
    count := frame.count + 1 }

/-- The union of the items since the last operation; several of them are one deeper. -/
def members (frame : SetFrame) : NestedSet :=
  if frame.count < 2 then frame.items else ⟨frame.items.set, frame.items.depth + 1⟩

/-- The sides of an operation without regard to case, where that is in force. -/
def fold (ignoreCase : Bool) (set : CharSet) : CharSet :=
  if ignoreCase then set.ignoringCase else set

/-- The set read so far, with the operation that waited carried out. -/
def operand (ignoreCase : Bool) (frame : SetFrame) : NestedSet :=
  match frame.waiting with
  | none => frame.members
  | some (left, op) =>
    let l := fold ignoreCase left.set
    let r := fold ignoreCase frame.members.set
    let set : CharSet :=
      match op with
      | .inter => .inter l r
      | .difference => .difference l r
      | .symmetricDifference => .differ l r
    ⟨set, max left.depth frame.members.depth + 1⟩

/-- An operation written: what stands before it is its left side. -/
def wait (ignoreCase : Bool) (frame : SetFrame) (op : SetOp) : SetFrame :=
  { negated := frame.negated, waiting := some (frame.operand ignoreCase, op) }

/-- The set of a closed bracket. Case is ignored before the complement is taken. -/
def close (ignoreCase : Bool) (frame : SetFrame) : NestedSet :=
  let operand := frame.operand ignoreCase
  let set := fold ignoreCase operand.set
  ⟨if frame.negated then .complement set else set, operand.depth + 1⟩

end SetFrame

/-- The operation that is written by two of a character. -/
def twinOp? : Char → Option SetOp
  | '&' => some .inter
  | '-' => some .difference
  | '~' => some .symmetricDifference
  | _ => none

namespace State

/-- The machine inside square brackets. -/
def inSet (s : State) (inner : SetFrame) (outer : List SetFrame) (mode : SetMode) : State :=
  { s with mode := .set inner outer mode }

/-- `]`: an item of the bracket around it, or of the pattern. -/
def closeSet (s : State) (inner : SetFrame) : List SetFrame → State
  | [] =>
    let set := inner.close s.flags.ignoreCase
    s.push (.chars set.set) set.depth
  | frame :: outer => s.inSet (frame.add (.cls (inner.close s.flags.ignoreCase))) outer .item

/-- A range between two characters in order. -/
def closeRange (s : State) (inner : SetFrame) (outer : List SetFrame) (first last : SetItem) :
    Option State :=
  match first, last with
  | .char a, .char b =>
    if a ≤ b then some (s.inSet (inner.add (.cls { set := .range a b })) outer .item) else none
  | _, _ => none

/-- A character where an item of a set may begin. -/
def stepSetItem (s : State) (inner : SetFrame) (outer : List SetFrame) (c : Char) : Option State :=
  match c with
  | '[' =>
    some { s.inSet {} (inner :: outer) (.start true) with
      bracketed := some { inner := inner, outer := outer } }
  | ']' => some (s.closeSet inner outer)
  | '\\' => some { s with mode := .escape (.set inner outer none) }
  | c =>
    if (twinOp? c).isSome then some (s.inSet inner outer (.twin c))
    else some (s.inSet inner outer (.after (.char c)))

/-- A character behind an item, which may be the first of a range. -/
def stepSetAfter (s : State) (inner : SetFrame) (outer : List SetFrame) (item : SetItem) (c : Char) :
    Option State :=
  if c == '-' then some (s.inSet inner outer (.dash item false))
  else s.stepSetItem (inner.add item) outer c

/-- A character inside square brackets. -/
def stepSet (s : State) (inner : SetFrame) (outer : List SetFrame) (c : Char) :
    SetMode → Option State
  | .start caret =>
    if c == '^' && caret then some (s.inSet { inner with negated := true } outer (.start false))
    else if c == '-' then some (s.inSet (inner.add (.char '-')) outer (.start false))
    else if c == ']' && inner.count == 0 then some (s.inSet (inner.add (.char ']')) outer .item)
    else s.stepSetItem inner outer c
  | .item => s.stepSetItem inner outer c
  | .twin d =>
    if c == d then
      (twinOp? d).map fun op => s.inSet (inner.wait s.flags.ignoreCase op) outer .item
    else s.stepSetAfter inner outer (.char d) c
  | .after item => s.stepSetAfter inner outer item c
  | .dash item spaced =>
    if c == ']' then some (s.closeSet ((inner.add item).add (.char '-')) outer)
    else if c == '-' then
      if spaced then some (s.inSet (inner.add item) outer (.dash (.char '-') false))
      else some (s.inSet ((inner.add item).wait s.flags.ignoreCase .difference) outer .item)
    else if c == '\\' then some { s with mode := .escape (.set inner outer (some item)) }
    else s.closeRange inner outer item (.char c)

end State

/-- The texts `:name:]` and `:^name:]`, with the class each stands for. -/
def bracketedClasses (ignoreCase : Bool) : List (List Char × CharSet) :=
  CharSet.posixClasses.flatMap fun (name, ranges) =>
    let set := SetFrame.fold ignoreCase (.ofRanges ranges)
    [(':' :: name.toList ++ [':', ']'], set),
     (':' :: '^' :: name.toList ++ [':', ']'], .complement set)]

end Verdict.Pattern
