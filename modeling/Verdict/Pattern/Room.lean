import Verdict.Pattern.Factored
import Verdict.Text.Encoded

/-!
# How much room a pattern takes

To be searched with, a pattern is written out as states that read one byte each, once for reading
forwards and once for reading backwards, with every counted repetition in full. A pattern for which
either would take more than `roomLimit` bytes is refused.

Forwards, states of a set from which the same bytes may follow are one. Backwards, sequences of bytes
share the states for the bytes with which they both begin.
-/

namespace Verdict.Pattern

open Verdict.Text

/-! ## 1. Sizes of states -/

/-- The bytes there are for one pattern in one direction. -/
def roomLimit : Nat := 10 <<< 20

/-- The bytes of a state. -/
def stateRoom : Nat := 32

/-- The bytes of a state with so many byte ranges, each with the state it leads to. -/
def readRoom (ranges : Nat) : Nat := stateRoom + 8 * ranges

/-- The bytes of a state from which so many ways go on. -/
def forkRoom (ways : Nat) : Nat := stateRoom + 4 * ways

/-- The direction in which bytes are read. -/
inductive Direction
  | forwards | backwards
deriving DecidableEq

/-! ## 2. Sets -/

/-- The first byte ranges of some sequences, and for each the sequences behind it. Sequences that
    begin alike stand together. -/
def firstBytes (sequences : List (List ByteRange)) : List (ByteRange × List (List ByteRange)) :=
  sequences.foldr (fun sequence groups =>
    match sequence, groups with
    | [], _ => groups
    | bytes :: rest, (first, rests) :: others =>
      if bytes == first then (first, rest :: rests) :: others else (bytes, [rest]) :: groups
    | bytes :: rest, [] => [(bytes, [rest])]) []

/-- What is left to be read after fewer than `k` bytes, a list of sequences for each way to get
    there. -/
def remainders : Nat → List (List ByteRange) → List (List (List ByteRange))
  | 0, _ => []
  | k + 1, sequences =>
    sequences :: ((firstBytes sequences).filter (·.2 != [[]])).flatMap fun group =>
      remainders k group.2

/-- The number of bytes with which two sequences both begin. -/
def commonBytes : List ByteRange → List ByteRange → Nat
  | a :: as, b :: bs => if a == b then commonBytes as bs + 1 else 0
  | _, _ => 0

/-- The number of beginnings of some sequences that no sequence before has, given the one before. -/
def newBeginnings : List ByteRange → List (List ByteRange) → Nat
  | _, [] => 0
  | before, sequence :: sequences =>
    sequence.length - commonBytes before sequence + newBeginnings sequence sequences

/-- The bytes of a set of characters: one character is its bytes; ASCII characters are read by one
    state; of other sets the sequences of bytes are written out. -/
def CharSet.room (direction : Direction) (set : CharSet) : Nat :=
  let spans := set.spans
  let sequences := encoded spans
  match sequences with
  | [] => stateRoom
  | _ =>
    if spans.size == 1 then stateRoom * sequences.flatten.length
    else if spans.all (·.2 < 0x80) then stateRoom + readRoom spans.length
    else
      match direction with
      | .forwards =>
        (remainders 4 sequences).eraseDups.foldr
          (fun rest room => readRoom (firstBytes rest).length + room) stateRoom
      | .backwards =>
        stateRoom + forkRoom sequences.length + stateRoom * newBeginnings [] sequences

/-! ## 3. Patterns -/

/-- The bytes of a pattern. Only forwards is kept what a group captures. A choice of several branches
    is one fork. -/
def Node.room (direction : Direction) : Node → Nat
  | empty => stateRoom
  | chars set => set.room direction
  | edge _ => stateRoom
  | seq first second => first.room direction + second.room direction
  | choice left right =>
    let fork :=
      match right with
      | choice _ _ => forkRoom 1 - forkRoom 0
      | _ => forkRoom 2 + stateRoom
    left.room direction + right.room direction + fork
  | repeated body least (some most) _ =>
    let once := body.room direction
    if least = most then once * least
    else
      let ends := if least = 0 && most != 1 then 2 * stateRoom else stateRoom
      once * least + (once + forkRoom 2) * (most - least) + ends
  | repeated body 0 none _ =>
    body.room direction + if body.nullable then 2 * forkRoom 2 + stateRoom else forkRoom 2
  | repeated body (least + 1) none _ => body.room direction * (least + 1) + forkRoom 2
  | group .plain body => body.room direction
  | group (.capture _) body =>
    match direction with
    | .forwards => body.room direction + 2 * stateRoom
    | .backwards => body.room direction

/-- The states around every pattern: its beginning and its end, and forwards what it captures. -/
def frameRoom : Direction → Nat
  | .forwards => 4 * stateRoom
  | .backwards => 2 * stateRoom

/-- Is there room for the pattern in both directions? -/
def Node.fits (node : Node) : Bool :=
  let node := node.factored
  [Direction.forwards, .backwards].all fun direction =>
    node.room direction + frameRoom direction ≤ roomLimit

end Verdict.Pattern
