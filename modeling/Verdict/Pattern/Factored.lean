import Verdict.Pattern.Basic

/-!
# Patterns with common beginnings drawn out

Before a pattern is walked it is put into a form in which groups that capture nothing are gone, and in
which the branches of a choice do not all begin alike: `ab*c|ab*d` becomes `ab*(?:c|d)`. The form
matches the same stretches. Which of them is preferred may change, though: where a common beginning
can end at several places, all branches are tried behind its first end before its second end is.

A beginning is made of whole items, and a branch that is one item is all beginning and no rest, so
that nothing is drawn out of a choice with such a branch. The branches of a choice that is itself a
branch are branches of the outer one.
-/

namespace Verdict.Pattern.Node

/-! ## 1. Items and branches -/

/-- The items of a sequence, one after the other. -/
def items : Node → List Node
  | empty => []
  | seq first second => first.items ++ second.items
  | node => [node]

/-- The sequence of some items. -/
def ofItems : List Node → Node
  | [] => empty
  | [node] => node
  | node :: nodes => seq node (ofItems nodes)

/-- The branches of a choice, the preferred ones first. -/
def branches : Node → List Node
  | choice left right => left.branches ++ right.branches
  | node => [node]

/-- The choice between some branches. -/
def ofBranches : List Node → Node
  | [] => empty
  | [node] => node
  | node :: nodes => choice node (ofBranches nodes)

/-! ## 2. Common beginnings -/

/-- Are the two patterns alike? A group that captures is like no other. -/
def alike : Node → Node → Bool
  | empty, empty => true
  | chars s, chars t => s.same t
  | edge e, edge f => e == f
  | seq a b, seq c d => a.alike c && b.alike d
  | choice a b, choice c d => a.alike c && b.alike d
  | repeated a least most greedy, repeated b least' most' greedy' =>
    least == least' && most == most' && greedy == greedy' && a.alike b
  | _, _ => false

/-- The items with which two sequences both begin. -/
def commonItems : List Node → List Node → List Node
  | x :: xs, y :: ys => if x.alike y then x :: commonItems xs ys else []
  | _, _ => []

/-- The items with which all branches begin; none if a branch is no sequence. -/
def stem : List (List Node) → List Node
  | [] => []
  | first :: others =>
    if (first :: others).all (2 ≤ ·.length) then others.foldl commonItems first else []

/-- The branches, with those of a choice in the place of a branch that is a choice. -/
def spread (sequences : List (List Node)) : List (List Node) :=
  sequences.flatMap fun sequence =>
    match sequence with
    | [node] => node.branches.map items
    | _ => [sequence]

/-- The set that a branch stands for, if it is one. -/
def set? : List Node → Option CharSet
  | [chars set] => some set
  | _ => none

/-- The choice between some branches, as a sequence; branches that are sets make one set. -/
def choose : List (List Node) → List Node
  | [sequence] => sequence
  | sequences =>
    match sequences.mapM set? with
    | some (set :: sets) => [chars (sets.foldl .union set)]
    | _ => [ofBranches (sequences.map ofItems)]

/-- The choice between some branches with their common beginning drawn out, as a sequence. -/
def gather (sequences : List (List Node)) : List Node :=
  let sequences := spread sequences
  let common := stem sequences
  if sequences.length < 2 || common.isEmpty then choose sequences
  else common ++ choose (spread (sequences.map (·.drop common.length)))

/-! ## 3. The form -/

/-- Does the pattern match over nothing only, as it is written? -/
def isBare : Node → Bool
  | empty => true
  | chars _ => false
  | edge _ => true
  | seq first second => first.isBare && second.isBare
  | choice left right => left.isBare && right.isBare
  | repeated body _ most _ => body.isBare || most == some 0
  | group _ body => body.isBare

/-- A repetition, unless it is of no pass at all or of exactly one. Over nothing one pass is as good
    as many. -/
def repeatedAs (body : Node) (least : Nat) (most : Option Nat) (greedy : Bool) : Node :=
  let least := if body.isBare then min least 1 else least
  let most := if body.isBare then some (min (most.getD 1) 1) else most
  if most == some 0 then empty
  else if least == 1 && most == some 1 then body
  else repeated body least most greedy

/-- The branches of a pattern, each as a sequence of items in the form. -/
def parts : Node → List (List Node)
  | empty => [[]]
  | chars set => [[chars set]]
  | edge condition => [[edge condition]]
  | seq first second => [gather first.parts ++ gather second.parts]
  | choice left right => left.parts ++ right.parts
  | repeated body least most greedy =>
    [(repeatedAs (ofItems (gather body.parts)) least most greedy).items]
  | group .plain body => [gather body.parts]
  | group (.capture name) body => [[group (.capture name) (ofItems (gather body.parts))]]

/-- **The form in which a pattern is walked.** -/
def factored (node : Node) : Node := ofItems (gather node.parts)

end Verdict.Pattern.Node
