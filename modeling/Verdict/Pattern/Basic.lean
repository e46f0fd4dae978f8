import Verdict.Pattern.CharSet

/-!
# Patterns

A pattern is a tree of sets of characters, conditions on a place, sequences, choices, repetitions and
groups. Where it matches, and which of several matches at one place is preferred, is the subject of
`Verdict/Pattern/Walk.lean`.
-/

namespace Verdict.Pattern

/-! ## 1. Patterns -/

/-- A condition on a place between two characters. -/
inductive Edge
  | textStart | textEnd
  | lineStart | lineEnd
  | wordBoundary | noWordBoundary
  | wordStart | wordEnd
  | wordStartHalf | wordEndHalf
deriving DecidableEq

/-- What a group does besides holding its pattern together: nothing, or it captures what it matches,
    under a name if it has one. -/
inductive Wrap
  | plain
  | capture (name : Option String)

/-- A pattern as a tree, with its groups as they are written. -/
inductive Node
  | empty
  | chars (set : CharSet)
  | edge (condition : Edge)
  | seq (first second : Node)
  | choice (left right : Node)
  | repeated (body : Node) (least : Nat) (most : Option Nat) (greedy : Bool)
  | group (wrap : Wrap) (body : Node)

/-- Does the condition hold before the character with index `i`? -/
def Edge.holds (text : Array Char) (i : Nat) (edge : Edge) : Bool :=
  let before := if i = 0 then none else text[i - 1]?
  let after := text[i]?
  let wordBefore := before.any Text.isWordChar
  let wordAfter := after.any Text.isWordChar
  match edge with
  | .textStart => i == 0
  | .textEnd => after.isNone
  | .lineStart => before.all (· == '\n')
  | .lineEnd => after.all (· == '\n')
  | .wordBoundary => wordBefore != wordAfter
  | .noWordBoundary => wordBefore == wordAfter
  | .wordStart => !wordBefore && wordAfter
  | .wordEnd => wordBefore && !wordAfter
  | .wordStartHalf => !wordBefore
  | .wordEndHalf => !wordAfter

/-- May the pattern match over nothing? -/
def Node.nullable : Node → Bool
  | empty => true
  | chars _ => false
  | edge _ => true
  | seq first second => first.nullable && second.nullable
  | choice left right => left.nullable || right.nullable
  | repeated body least _ _ => least == 0 || body.nullable
  | group _ body => body.nullable

end Verdict.Pattern

namespace Verdict

/-- A pattern, with its text and the names of its groups in the order they are written. -/
structure Pattern where
  source : List Char
  node : Pattern.Node
  names : List String

end Verdict
