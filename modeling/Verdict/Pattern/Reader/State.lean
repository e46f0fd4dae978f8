import Verdict.Pattern.Room
import Verdict.Text.Blank

/-!
# The state of reading a pattern

A pattern is read by a machine with a stack: the groups that are open, what has been read of the
innermost one, the flags in force, and a MODE that says what the next character continues. This file
holds the state and the changes to it that end an item, a branch or a group.

A group keeps the flags that were in force before it, since flags set inside hold up to its end, also
in the branches to come.

Each item comes with the DEPTH to which it is nested. A character, a class or an edge has none; a
group, a repetition, a bracket, a branch of several items and a choice of several branches add one
each. A pattern may not be deeper than `depthLimit`.
-/

namespace Verdict.Pattern

open Verdict.Text

/-! ## 1. The state -/

/-- What changes the reading of the characters that follow. -/
structure Flags where
  ignoreCase : Bool := false
  multiLine : Bool := false
  dotAll : Bool := false
  swapGreed : Bool := false
  ignoreSpace : Bool := false

/-- A pattern with the depth to which it is nested. -/
structure Item where
  node : Node
  depth : Nat := 0

/-- What has been read of an open group: the branches before the last `|`, the items of the branch
    since, the last one first, and whether a repetition may apply to that one. -/
structure Frame where
  wrap : Wrap
  outerFlags : Flags
  branches : Option Item := none
  items : List Item := []
  repeatable : Bool := false

/-- An operation between two sets in square brackets. -/
inductive SetOp
  | inter | difference | symmetricDifference

/-- A set with the depth to which brackets and operations are nested in it. -/
structure NestedSet where
  set : CharSet
  depth : Nat := 0

/-- What has been read of an open square bracket: the left side of an operation that waits for its
    right side, and since then the union of the items, the depth of the deepest, and their number. -/
structure SetFrame where
  negated : Bool := false
  waiting : Option (NestedSet × SetOp) := none
  items : NestedSet := ⟨.none, 0⟩
  count : Nat := 0

/-- A member of a set: a character, which may begin or end a range, or a class. -/
inductive SetItem
  | char (c : Char)
  | cls (set : NestedSet)

/-- What the next character continues inside square brackets. -/
inductive SetMode
  | start (caret : Bool)
  | item
  | twin (c : Char)
  | after (item : SetItem)
  | dash (item : SetItem) (spaced : Bool)

/-- Where an escaped character belongs: to the pattern, or to a set, perhaps as the end of a
    range. -/
inductive Target
  | pattern
  | set (inner : SetFrame) (outer : List SetFrame) (first : Option SetItem)

/-- What has been read of a list of flags. -/
structure FlagList where
  flags : Flags
  seen : List Char := []
  negative : Bool := false
  dangling : Bool := false

/-- What was written just before, as far as it changes the meaning of the next character: after a
    repetition `?` makes it lazy, after `\b` a brace may name another edge. -/
inductive Recent
  | other | repetition | counted | boundary
deriving DecidableEq

/-- What the next character continues. -/
inductive Mode
  | items (recent : Recent)
  | braces (content : List Char) (boundary : Bool)
  | groupStart
  | groupKind
  | groupNamed
  | groupAngle
  | groupName (name : List Char)
  | groupFlags (list : FlagList)
  | escape (target : Target)
  | hexStart (target : Target) (width : Nat)
  | hexDigits (target : Target) (left value : Nat)
  | hexBraces (target : Target) (value : Option Nat)
  | set (inner : SetFrame) (outer : List SetFrame) (mode : SetMode)

/-- A `[` inside square brackets opens a set, unless `[:name:]` is read on: the characters since,
    and the brackets around it. -/
structure Bracketed where
  chars : List Char := []
  inner : SetFrame
  outer : List SetFrame

/-- The state of the machine: the innermost group, the groups around it, the flags in force, the
    names used, and what the next character continues. -/
structure State where
  frame : Frame
  outer : List Frame := []
  flags : Flags := {}
  names : List String := []
  mode : Mode := .items .other
  comment : Bool := false
  bracketed : Option Bracketed := none

/-- The state before the first character. -/
def State.initial : State := { frame := { wrap := .plain, outerFlags := {} } }

/-- The depth a pattern may have. -/
def depthLimit : Nat := 250

/-! ## 2. Items -/

/-- The items of a branch, the last one first, as one item. -/
def Item.sequence : List Item → Item
  | [] => { node := .empty }
  | [item] => item
  | items =>
    { node := items.foldr (fun item node => .seq node item.node) .empty
      depth := items.foldr (fun item depth => max item.depth depth) 0 + 1 }

/-- The branch read so far. -/
def Frame.branch (frame : Frame) : Item := .sequence frame.items

/-- The branches read so far, as a choice that goes on. -/
def Frame.alternatives (frame : Frame) : Item :=
  match frame.branches with
  | none => frame.branch
  | some branches =>
    ⟨.choice branches.node frame.branch.node, max branches.depth frame.branch.depth⟩

/-- The group with its last branch ended. -/
def Frame.content (frame : Frame) : Item :=
  let item := frame.alternatives
  if frame.branches.isSome then { item with depth := item.depth + 1 } else item

namespace State

/-- An item at the end of the branch. -/
def push (s : State) (node : Node) (depth : Nat) : State :=
  { s with
    frame := { s.frame with items := ⟨node, depth⟩ :: s.frame.items, repeatable := true }
    mode := .items .other }

/-- The set of one character, with its variants where case is ignored. -/
def literal (s : State) (c : Char) : Node :=
  .chars (if s.flags.ignoreCase then .anyCase (.single c) else .single c)

/-- The last item, if a repetition may apply to it, and the items before it. -/
def last? (s : State) : Option (Item × List Item) :=
  match s.frame.items with
  | item :: items => if s.frame.repeatable then some (item, items) else none
  | [] => none

/-- The last item repeated; there has to be one. -/
def repeatLast (s : State) (least : Nat) (most : Option Nat) (recent : Recent) : Option State :=
  s.last?.map fun (item, items) =>
    let repeated : Item := ⟨.repeated item.node least most (!s.flags.swapGreed), item.depth + 1⟩
    { s with frame := { s.frame with items := repeated :: items }, mode := .items recent }

/-- The other preference for the repetition just written. -/
def swapGreed (s : State) : State :=
  match s.frame.items with
  | ⟨.repeated body least most greedy, depth⟩ :: items =>
    { s with
      frame := { s.frame with items := ⟨.repeated body least most (!greedy), depth⟩ :: items }
      mode := .items .other }
  | _ => { s with mode := .items .other }

/-! ## 3. Groups -/

/-- A group opened; until more is read it captures without a name. -/
def openGroup (s : State) : State :=
  { s with
    frame := { wrap := .capture none, outerFlags := s.flags }
    outer := s.frame :: s.outer
    mode := .groupStart }

/-- The innermost group closed; there has to be one. -/
def closeGroup (s : State) : Option State :=
  match s.outer with
  | [] => none
  | frame :: outer =>
    let content := s.frame.content
    let group : Item := ⟨.group s.frame.wrap content.node, content.depth + 1⟩
    some { s with
      frame := { frame with items := group :: frame.items, repeatable := true }
      outer := outer
      flags := s.frame.outerFlags
      mode := .items .other }

/-- `|`: the branch ended, a new one begun. -/
def nextBranch (s : State) : State :=
  { s with
    frame := { s.frame with
      branches := some s.frame.alternatives
      items := []
      repeatable := false }
    mode := .items .other }

/-- The group just opened is no group but a setting of flags for the rest of the group around it. It
    is an item that matches over nothing, and a repetition cannot follow it. -/
def setFlags (s : State) (flags : Flags) : Option State :=
  match s.outer with
  | [] => none
  | frame :: outer =>
    some { s with
      frame := { frame with items := ⟨.empty, 0⟩ :: frame.items, repeatable := false }
      outer := outer
      flags := flags
      mode := .items .other }

/-- The name of the group just opened, which no group before it may have. -/
def nameGroup (s : State) (name : String) : Option State :=
  if name.isEmpty || s.names.contains name then none
  else some { s with
    frame := { s.frame with wrap := .capture (some name) }
    names := s.names ++ [name]
    mode := .items .other }

end State

/-- A character of a group name: a letter or `_` to begin with, later also numerals, a point and
    square brackets. -/
def isNameChar (first : Bool) (c : Char) : Bool :=
  c == '_' || isAlphabetic c || !first && (isNumeral c || c == '.' || c == '[' || c == ']')

/-- A letter of a list of flags read; no flag is named twice. -/
def FlagList.read? (list : FlagList) (c : Char) : Option FlagList :=
  if list.seen.contains c then none
  else
    let on := !list.negative
    let next (flags : Flags) : FlagList :=
      { list with flags := flags, seen := c :: list.seen, dangling := false }
    match c with
    | 'i' => some (next { list.flags with ignoreCase := on })
    | 'm' => some (next { list.flags with multiLine := on })
    | 's' => some (next { list.flags with dotAll := on })
    | 'U' => some (next { list.flags with swapGreed := on })
    | 'x' => some (next { list.flags with ignoreSpace := on })
    | 'u' => if on then some (next list.flags) else none
    | '-' => some { list with seen := c :: list.seen, negative := true, dangling := true }
    | _ => none

end Verdict.Pattern
