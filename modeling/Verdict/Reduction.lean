import Verdict.Folding

/-!
# Reducing tokens to one truth value

A HALF is a truth value with the junction behind it, or with none at the end of a list. Each bracket
that is open has a list of halves; when it closes, the list is reduced and the value goes to the
list around it.

`reduce` takes a list in one pass, with `and` binding tighter than `or`. An `or` before an `and`
cannot be carried out yet, since the right side of the `and` is not known: its left side is put
aside as a DEBT, which the whole value is joined with at the end.

A failed step leaves the lists as they are, but for one case: a closing bracket whose list cannot be
reduced has taken the list off already.
-/

namespace Verdict

/-! ## 1. Halves -/

/-- A truth value and the junction behind it. -/
structure Half where
  value : Bool
  junction : Option Junction
deriving DecidableEq

namespace Half

/-- A half with no junction behind it. -/
def last (value : Bool) : Half := ⟨value, none⟩

/-- A half joined with the next one; nothing if it is an `or` before an `and`. -/
def combine (half next : Half) : Except Fault (Option Half) :=
  match half.junction with
  | none => .error (.badShape (.notFollowed half.value))
  | some junction =>
    if junction = .or ∧ next.junction = some .and then .ok none
    else .ok (some ⟨junction.apply half.value next.value, next.junction⟩)

end Half

/-! ## 2. One list -/

/-- A value with a debt, if there is one. -/
def settle (debt : Option Bool) (value : Bool) : Bool :=
  match debt with
  | none => value
  | some owed => owed || value

/-- The value of the halves from `current` on, given the debt so far. -/
def reduceFrom (debt : Option Bool) (current : Half) : List Half → Except Fault Bool
  | [] =>
    match current.junction with
    | some junction => .error (.badShape (.endsWith junction))
    | none => .ok (settle debt current.value)
  | next :: halves =>
    match current.combine next with
    | .error x => .error x
    | .ok (some joined) => reduceFrom debt joined halves
    | .ok none => reduceFrom (some (settle debt current.value)) next halves

/-- **The value of a list of halves.** -/
def reduce : List Half → Except Fault Bool
  | [] => .error (.badShape .nothing)
  | half :: halves => reduceFrom none half halves

/-! ## 3. The lists of the open brackets -/

/-- The lists of halves, that of the innermost bracket apart; the depths of the open brackets behind
    a negation, the innermost first; and whether the last token was a negation. -/
structure Reducer where
  current : List Half
  outer : List (List Half)
  negated : List Nat
  pending : Bool
deriving DecidableEq

namespace Reducer

/-- No token taken yet. -/
def start : Reducer := ⟨[], [], [], false⟩

/-- How many brackets are open. -/
def depth (r : Reducer) : Nat := r.outer.length

/-- All lists, the outermost first. -/
def lists (r : Reducer) : List (List Half) := r.outer.reverse ++ [r.current]

/-- A junction behind the last half, which must have none yet. -/
def join (r : Reducer) (junction : Junction) : Except Fault Reducer :=
  match r.current.getLast? with
  | some ⟨value, none⟩ => .ok { r with current := r.current.dropLast ++ [⟨value, some junction⟩] }
  | _ => .error (.badChain (.noLeftSide junction))

/-- A value at the end of the innermost list, where a junction must be before it. -/
def append (r : Reducer) (value : Bool) : Except Fault Reducer :=
  match r.current.getLast? with
  | some ⟨before, none⟩ => .error (.badChain (.notJoined before value))
  | _ => .ok { r with current := r.current ++ [.last value] }

/-- An opening bracket, which may be behind a negation. -/
def openBracket (r : Reducer) (negate : Bool) : Reducer :=
  { r with
    current := []
    outer := r.current :: r.outer
    negated := if negate then (r.depth + 1) :: r.negated else r.negated }

/-- A closing bracket: the innermost list reduced, inverted if its bracket is behind a negation, and
    put into the list around it. The answer is a fault or nothing, with the reducer behind it. -/
def closeBracket (r : Reducer) : Option Fault × Reducer :=
  match r.outer with
  | [] => (some .unbalancedBrackets, r)
  | list :: outer =>
    let popped := { r with current := list, outer := outer }
    match reduce r.current with
    | .error x => (some x, popped)
    | .ok value =>
      let negates := r.negated.head? == some r.depth
      let settled := { popped with negated := if negates then r.negated.tail else r.negated }
      match settled.append (if negates then !value else value) with
      | .error x => (some x, settled)
      | .ok s => (none, s)

/-- A step that changes nothing if it fails. -/
def attempt (r : Reducer) (step : Except Fault Reducer) : Option Fault × Reducer :=
  match step with
  | .ok s => (none, s)
  | .error x => (some x, r)

/-- **One token taken**: the fault if it cannot follow, and the reducer behind it. -/
def push (r : Reducer) (token : Token) : Option Fault × Reducer :=
  let s := { r with pending := false }
  match token with
  | .junction junction => s.attempt (s.join junction)
  | .negation => (none, { r with pending := true })
  | .opening => (none, s.openBracket r.pending)
  | .truth value => s.attempt (s.append value)
  | .closing => s.closeBracket

/-- The value once all tokens are taken; no bracket may be open. -/
def finish (r : Reducer) : Except Fault Bool :=
  if r.outer.isEmpty then reduce r.current else .error (.badShape (.leftOpen r.depth))

/-- All tokens taken, up to the first fault. -/
def pushAll (r : Reducer) : List Token → Except Fault Reducer
  | [] => .ok r
  | token :: tokens =>
    match r.push token with
    | (some x, _) => .error x
    | (none, s) => s.pushAll tokens

end Reducer

/-- **The value of a list of tokens.** -/
def evaluateTokens (tokens : List Token) : Except Fault Bool := do
  let r ← Reducer.start.pushAll tokens
  r.finish

/-! ## 4. The state as a text -/

namespace Reducer

/-- The text of a half, with the names of its parts. -/
def halfText (half : Half) : String :=
  let value := truthWord half.value
  let operator := match half.junction with
    | none => "None"
    | some junction => "Some(" ++ junction.word ++ ")"
  "HalfBooleanExpression \x7b boolean: " ++ value ++ ", operator: " ++ operator ++ " \x7d"

/-- Texts in square brackets. -/
def bracketed (texts : List String) : String := "[" ++ String.intercalate ", " texts ++ "]"

/-- The text of a reducer, with the names of its parts. -/
def stateText (r : Reducer) : String :=
  let results := bracketed (r.lists.map fun list => bracketed (list.map halfText))
  let negated := bracketed (r.negated.reverse.map toString)
  let pending := truthWord r.pending
  "Evaluator \x7b results: " ++ results ++ ", negated: " ++ negated ++
    ", prefix_pending: " ++ pending ++ " \x7d"

end Reducer

end Verdict
