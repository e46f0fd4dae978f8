import Verdict.Comparing
import Verdict.Condition

/-!
# Folding a condition into tokens

Comparisons and variables are decided as soon as they are reached, so that only truth values,
junctions, negations and brackets are left. What may follow depends on the token before:

* behind a truth value or a closing bracket: a connective or a closing bracket;
* at the start, behind a connective and behind an opening bracket: an opening bracket, a negation, a
  comparison or a variable;
* behind a negation: an opening bracket or a variable.

A negated variable comes out inverted behind its negation; that of a bracket is left to the
reduction. A FOLDER remembers the last token and what is left to read. A fault leaves the last token
as it was, while the elements read stay read, so that a folder can be asked on after a fault.

* `length_next_lt`: every answer before the end uses up at least one element.
* `next_of_nil`: at the end nothing changes any more.
-/

namespace Verdict

/-- What a condition is folded into. -/
inductive Token
  | truth (b : Bool)
  | junction (j : Junction)
  | negation
  | opening
  | closing
deriving DecidableEq

/-- A condition half folded: the element read last, the elements not yet read, and the last token. -/
structure Folder where
  previous : Option Element
  rest : List Element
  last : Option Token

namespace Folder

/-! ## 1. One token -/

/-- A folder before the first element. -/
def start (c : Condition) : Folder := ⟨none, c, none⟩

/-- The text of the element read last. -/
def previousText (f : Folder) : String := (f.previous.map Element.text).getD ""

/-- What an element or three amount to, and the folder behind them. -/
abbrev Answer := Except Fault (Option Token) × Folder

/-- The folder behind one element. -/
def pass (f : Folder) (e : Element) (rest : List Element) : Folder :=
  { f with previous := some e, rest := rest }

/-- The answer with a token, which is then the last one. -/
def emit (f : Folder) (token : Token) : Answer := (.ok (some token), { f with last := some token })

/-- The answer with a truth value or a fault. -/
def emitTruth (f : Folder) (truth : Except Fault Bool) : Answer :=
  match truth with
  | .ok b => f.emit (.truth b)
  | .error x => (.error x, f)

/-- Behind a truth value or a closing bracket. -/
def afterTruth (f : Folder) (e : Element) (rest : List Element) : Answer :=
  let g := f.pass e rest
  match e with
  | .connective operator => g.emit (.junction operator.junction)
  | .bracket .closing => g.emit .closing
  | other => (.error (.badChain (.cannotFollow f.previousText other.text)), g)

/-- Where a condition may begin. A comparison is told by the operator behind its first element; it
    takes the element behind the operator too, whatever that is. -/
def atBeginning (lookup : Lookup) (f : Folder) (e : Element) (rest : List Element) : Answer :=
  match e with
  | .bracket .opening => (f.pass e rest).emit .opening
  | .negation _ => (f.pass e rest).emit .negation
  | _ =>
    match rest with
    | .comparison operator :: right :: rest =>
      (f.pass right rest).emitTruth (comparisonOf lookup [e, .comparison operator, right])
    | [.comparison operator] =>
      (f.pass (.comparison operator) []).emitTruth (comparisonOf lookup [e, .comparison operator])
    | _ => (f.pass e rest).emitTruth (truthOf lookup [e])

/-- Behind a negation. -/
def afterNegation (lookup : Lookup) (f : Folder) (e : Element) (rest : List Element) : Answer :=
  let g := f.pass e rest
  match e with
  | .bracket .opening => g.emit .opening
  | .operand (.var _) => g.emitTruth ((truthOf lookup [e]).map (!·))
  | other => (.error (.badChain (.cannotNegate other.text)), g)

/-- The answer at the end: nothing, unless something has to follow the last token. -/
def atEnd (f : Folder) : Except Fault (Option Token) :=
  match f.last with
  | some (.junction _) | some .negation | some .opening =>
    .error (.badChain (.cannotEndWith f.previousText))
  | _ => .ok none

/-- **The next token**, or nothing at the end, or a fault; and the folder behind it. -/
def next (lookup : Lookup) (f : Folder) : Answer :=
  match f.rest with
  | [] => (f.atEnd, f)
  | e :: rest =>
    match f.last with
    | some (.truth _) | some .closing => f.afterTruth e rest
    | some .negation => f.afterNegation lookup e rest
    | none | some (.junction _) | some .opening => f.atBeginning lookup e rest

/-! ## 2. Progress -/

@[simp] theorem next_of_nil (lookup : Lookup) {f : Folder} (h : f.rest = []) :
    f.next lookup = (f.atEnd, f) := by
  simp only [next, h]

@[simp] theorem rest_emit (f : Folder) (token : Token) : (f.emit token).2.rest = f.rest := rfl

@[simp] theorem rest_emitTruth (f : Folder) (truth : Except Fault Bool) :
    (f.emitTruth truth).2.rest = f.rest := by
  cases truth <;> rfl

theorem length_next_lt (lookup : Lookup) {f : Folder} (h : f.rest ≠ []) :
    (f.next lookup).2.rest.length < f.rest.length := by
  cases hr : f.rest with
  | nil => exact absurd hr h
  | cons e rest =>
    have after : (f.afterTruth e rest).2.rest = rest := by
      simp only [afterTruth]; split <;> rfl
    have negated : (f.afterNegation lookup e rest).2.rest = rest := by
      simp only [afterNegation]; split <;> simp only [rest_emit, rest_emitTruth, pass]
    have beginning : (f.atBeginning lookup e rest).2.rest.length ≤ rest.length := by
      simp only [atBeginning]
      split
      · exact Nat.le_refl _
      · exact Nat.le_refl _
      · split <;> simp only [rest_emitTruth, pass, List.length_cons, List.length_nil] <;> omega
    simp only [next, hr, List.length_cons]
    split
    · rw [after]; omega
    · rw [after]; omega
    · rw [negated]; omega
    all_goals omega

/-! ## 3. All tokens -/

/-- The tokens up to the first fault or the end, with the fault if there is one; at most `n` of
    them. -/
def takeTokens (lookup : Lookup) (f : Folder) : Nat → List Token × Option Fault
  | 0 => ([], none)
  | n + 1 =>
    match f.next lookup with
    | (.error x, _) => ([], some x)
    | (.ok none, _) => ([], none)
    | (.ok (some token), f) =>
      let (tokens, fault) := takeTokens lookup f n
      (token :: tokens, fault)

/-- The answers to `n` questions in a row, whatever they are. -/
def answers (lookup : Lookup) (f : Folder) : Nat → List (Except Fault (Option Token))
  | 0 => []
  | n + 1 => (f.next lookup).1 :: answers lookup (f.next lookup).2 n

end Folder

/-- The tokens of a condition up to the first fault, and the fault. There is at most one token for
    an element, and one answer more at the end. -/
def Condition.tokens (lookup : Lookup) (c : Condition) : List Token × Option Fault :=
  (Folder.start c).takeTokens lookup (c.length + 1)

/-- The tokens of a condition, or the first fault. -/
def Condition.fold (lookup : Lookup) (c : Condition) : Except Fault (List Token) :=
  match Condition.tokens lookup c with
  | (tokens, none) => .ok tokens
  | (_, some fault) => .error fault

end Verdict
