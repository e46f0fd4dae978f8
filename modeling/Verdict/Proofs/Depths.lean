import Mathlib.Data.List.Induction
import Verdict.Proofs.FirstFault

/-!
# What a reducer keeps

A reducer can be given more tokens after one that it refused. This file says what holds of it then,
whatever it has been given, and what more there is to say as long as it refused none.

Whatever it has been given, in each list there is a junction behind each half but the last one, and
there is an innermost list. The latter is so by the form of the state; `Rows` is the state without
that form, with all lists in one row that may well be empty. No token ever leads there.

As long as no token was refused, the state says which brackets are open and which of them are
inverted. After a refusal this is over: a closing bracket that is refused may leave a depth behind,
and the next bracket at that depth is then inverted.

* `rows_push` -- the lists in one row take a token as the reducer does, and always have an answer.
* `linked_push` -- a junction stays behind each half but the last one.
* `openAt_concat` -- the brackets that are open, one token later.
* `tracks_of_allTaken` -- what the state says as long as no token was refused.
* `pushOn_keeps` -- **all of it, for all tokens.**
-/

namespace Verdict

/-! ## 1. All lists in one row -/

/-- The state of a reducer with all lists in one row, the outermost first, and the depths likewise.
    There may be no list at all; what asks for the innermost one has no answer then. -/
structure Rows where
  lists : List (List Half)
  negated : List Nat
  pending : Bool

namespace Rows

/-- No token taken yet. -/
def start : Rows := ⟨[[]], [], false⟩

/-- How many lists there are around the innermost one. -/
def depth? (s : Rows) : Option Nat := s.lists.tail?.map List.length

/-- A value at the end of the innermost list, where a junction must be before it. -/
def append? (s : Rows) (value : Bool) : Option (Option Fault × Rows) := do
  let list ← s.lists.getLast?
  match list.getLast? with
  | some ⟨before, none⟩ => some (some (.badChain (.notJoined before value)), s)
  | _ => some (none, { s with lists := s.lists.dropLast ++ [list ++ [.last value]] })

/-- A junction behind the last half of the innermost list, which must have none yet. -/
def join? (s : Rows) (junction : Junction) : Option (Option Fault × Rows) := do
  let list ← s.lists.getLast?
  match list.getLast? with
  | some ⟨value, none⟩ =>
    some (none, { s with lists := s.lists.dropLast ++ [list.dropLast ++ [⟨value, some junction⟩]] })
  | _ => some (some (.badChain (.noLeftSide junction)), s)

/-- The innermost list taken off and reduced, and its value put into the list around it. -/
def close? (s : Rows) : Option (Option Fault × Rows) := do
  let depth ← s.depth?
  if depth = 0 then some (some .unbalancedBrackets, s)
  else
    let list ← s.lists.getLast?
    let popped := { s with lists := s.lists.dropLast }
    match reduce list with
    | .error x => some (some x, popped)
    | .ok value =>
      if s.negated.getLast? = some depth then
        ({ popped with negated := s.negated.dropLast }).append? (!value)
      else popped.append? value

/-- One token taken, if there is a list where one is needed. -/
def push? (s : Rows) (token : Token) : Option (Option Fault × Rows) :=
  let taken := { s with pending := false }
  match token with
  | .junction junction => taken.join? junction
  | .negation => some (none, { s with pending := true })
  | .opening =>
    let opened := s.lists ++ [[]]
    let depth := opened.length - 1
    some (none, ⟨opened, if s.pending then s.negated ++ [depth] else s.negated, false⟩)
  | .truth value => taken.append? value
  | .closing => taken.close?

/-- All tokens taken, whatever their faults. -/
def pushOn? (s : Rows) (tokens : List Token) : Option Rows :=
  tokens.foldlM (fun t token => (t.push? token).map Prod.snd) s

/-- The value at the end, if there is a list. -/
def finish? (s : Rows) : Option (Except Fault Bool) := do
  let depth ← s.depth?
  if depth = 0 then s.lists.head?.map reduce else some (.error (.badShape (.leftOpen depth)))

end Rows

namespace Reducer

/-- The state with all lists in one row. -/
def rows (r : Reducer) : Rows := ⟨r.lists, r.negated.reverse, r.pending⟩

/-- All tokens taken, whatever their faults. -/
def pushOn (r : Reducer) (tokens : List Token) : Reducer :=
  tokens.foldl (fun s token => (s.push token).2) r

@[simp] theorem pushOn_concat (r : Reducer) (tokens : List Token) (token : Token) :
    r.pushOn (tokens ++ [token]) = ((r.pushOn tokens).push token).2 := by
  simp only [pushOn, List.foldl_append, List.foldl_cons, List.foldl_nil]

/-- The answer to a token, with all lists in one row. -/
def rowsBehind (answer : Option Fault × Reducer) : Option Fault × Rows :=
  (answer.1, answer.2.rows)

theorem length_lists (r : Reducer) : r.lists.length = r.depth + 1 := by
  simp only [lists, depth, List.length_append, List.length_reverse, List.length_singleton]

theorem rows_depth (r : Reducer) : r.rows.depth? = some r.depth := by
  obtain ⟨list, around, h⟩ : ∃ list around, r.lists = list :: around :=
    List.exists_cons_of_length_pos (by rw [length_lists]; omega)
  have hlen := r.length_lists
  rw [h, List.length_cons] at hlen
  simp only [Rows.depth?, rows, h, List.tail?_cons, Option.map_some, Option.some.injEq]
  omega

theorem rows_append (r : Reducer) (v : Bool) :
    r.rows.append? v = some (rowsBehind (r.attempt (r.append v))) := by
  simp only [Rows.append?, rows, lists, List.getLast?_concat, List.dropLast_concat, append,
    Option.bind_eq_bind, Option.bind_some]
  cases r.current.getLast? with
  | none => rfl
  | some half =>
    obtain ⟨w, k⟩ := half
    cases k <;> rfl

theorem rows_join (r : Reducer) (j : Junction) :
    r.rows.join? j = some (rowsBehind (r.attempt (r.join j))) := by
  simp only [Rows.join?, rows, lists, List.getLast?_concat, List.dropLast_concat, join,
    Option.bind_eq_bind, Option.bind_some]
  cases r.current.getLast? with
  | none => rfl
  | some half =>
    obtain ⟨v, k⟩ := half
    cases k <;> rfl

theorem rows_close (r : Reducer) : r.rows.close? = some (rowsBehind r.closeBracket) := by
  simp only [Rows.close?, rows_depth, Option.bind_eq_bind, Option.bind_some]
  cases hout : r.outer with
  | nil =>
    have hd : r.depth = 0 := List.length_eq_zero_iff.mpr hout
    simp only [hd, ↓reduceIte, closeBracket, hout, rowsBehind]
  | cons list outer =>
    have hd : r.depth ≠ 0 := by
      rw [depth, hout]
      exact Nat.succ_ne_zero _
    have hlists : r.rows.lists = outer.reverse ++ [list] ++ [r.current] := by
      rw [rows, lists, hout, List.reverse_cons]
    have happend (negated : List Nat) (v : Bool) :
        Rows.append? ⟨outer.reverse ++ [list], negated.reverse, r.pending⟩ v
          = some (rowsBehind (attempt ⟨list, outer, negated, r.pending⟩
              (append ⟨list, outer, negated, r.pending⟩ v))) :=
      rows_append ⟨list, outer, negated, r.pending⟩ v
    have hnegated : r.rows.negated = r.negated.reverse := rfl
    simp only [hd, ↓reduceIte, closeBracket, hout, hlists, hnegated, List.getLast?_concat,
      List.dropLast_concat, Option.bind_some]
    cases reduce r.current with
    | error x => rfl
    | ok v =>
      simp only [List.getLast?_reverse, List.dropLast_reverse, beq_iff_eq]
      split
      · refine (happend r.negated.tail (!v)).trans ?_
        cases append ⟨list, outer, r.negated.tail, r.pending⟩ (!v) <;> rfl
      · refine (happend r.negated v).trans ?_
        cases append ⟨list, outer, r.negated, r.pending⟩ v <;> rfl

/-- **In one row the lists take a token as the reducer does**: there is always an answer, and it is
    the same. -/
theorem rows_push (r : Reducer) (token : Token) :
    r.rows.push? token = some (rowsBehind (r.push token)) := by
  cases token with
  | truth v => exact rows_append { r with pending := false } v
  | junction j => exact rows_join { r with pending := false } j
  | closing => exact rows_close { r with pending := false }
  | negation => rfl
  | opening =>
    obtain ⟨current, outer, negated, pending⟩ := r
    cases pending <;>
      simp only [Rows.push?, push, openBracket, rowsBehind, rows, lists, depth, List.reverse_cons,
        List.length_append, List.length_reverse, List.length_singleton, Nat.add_sub_cancel,
        ↓reduceIte, Bool.false_eq_true]

theorem rows_pushOn (r : Reducer) (tokens : List Token) :
    r.rows.pushOn? tokens = some (r.pushOn tokens).rows := by
  induction tokens generalizing r with
  | nil => rfl
  | cons token tokens ih =>
    simp only [Rows.pushOn?, List.foldlM_cons, rows_push, Option.map_some, Option.bind_eq_bind,
      Option.bind_some]
    exact ih (r.push token).2

theorem rows_finish (r : Reducer) : r.rows.finish? = some r.finish := by
  simp only [Rows.finish?, rows_depth, Option.bind_eq_bind, Option.bind_some]
  cases hout : r.outer with
  | nil =>
    have hd : r.depth = 0 := List.length_eq_zero_iff.mpr hout
    rw [if_pos hd, finish, rows, lists, hout]
    rfl
  | cons list outer =>
    have hd : 0 < r.depth := by
      rw [depth, hout]
      exact Nat.succ_pos _
    rw [if_neg (Nat.ne_of_gt hd), finish_of_depth_pos hd]

/-! ## 2. What a push keeps -/

/-- A junction behind each half but the last one. -/
def Linked (halves : List Half) : Prop := AllJoined halves.dropLast

theorem linked_nil : Linked [] := allJoined_nil

theorem linked_concat {halves : List Half} {half : Half} :
    Linked (halves ++ [half]) ↔ AllJoined halves := by
  rw [Linked, List.dropLast_concat]

theorem Linked.allJoined {halves : List Half} (h : Linked halves) (hj : Joinable halves) :
    AllJoined halves := by
  rcases List.eq_nil_or_concat' halves with rfl | ⟨front, half, rfl⟩
  · exact allJoined_nil
  · obtain ⟨v, j⟩ := half
    cases j with
    | none => exact absurd hj (not_joinable_append_last front v)
    | some j => exact (linked_concat.mp h).append_some v j

/-- All lists of a reducer, that of the innermost bracket included. -/
def AllLinked (r : Reducer) : Prop := ∀ list ∈ r.lists, Linked list

theorem allLinked_iff {r : Reducer} :
    r.AllLinked ↔ Linked r.current ∧ ∀ list ∈ r.outer, Linked list := by
  simp only [AllLinked, lists, List.mem_append, List.mem_reverse, List.mem_singleton]
  constructor
  · exact fun h => ⟨h _ (.inr rfl), fun list hl => h list (.inl hl)⟩
  · intro h list hl
    rcases hl with hl | rfl
    · exact h.2 list hl
    · exact h.1

theorem allLinked_start : start.AllLinked := allLinked_iff.mpr ⟨linked_nil, nofun⟩

theorem Step.allLinked {r s : Reducer} {token : Token} (h : Step r token s) (hr : r.AllLinked) :
    s.AllLinked := by
  obtain ⟨hcurrent, houter⟩ := allLinked_iff.mp hr
  refine allLinked_iff.mpr ?_
  cases h with
  | truth v hj => exact ⟨linked_concat.mpr (hcurrent.allJoined hj), houter⟩
  | junction j hc =>
    rw [hc, linked_concat] at hcurrent
    exact ⟨linked_concat.mpr hcurrent, houter⟩
  | negation => exact ⟨hcurrent, houter⟩
  | opening => exact ⟨linked_nil, List.forall_mem_cons.mpr ⟨hcurrent, houter⟩⟩
  | closing hout _ hj =>
    rw [hout] at houter
    obtain ⟨hlist, houter⟩ := List.forall_mem_cons.mp houter
    exact ⟨linked_concat.mpr (hlist.allJoined hj), houter⟩

/-- **What a refusal leaves**: all lists and all depths, unless it is that of a bracket closed at a
    depth, which takes the innermost list off. -/
theorem Refusal.keeps {r s : Reducer} {token : Token} {x : Fault} (h : Refusal r token x s) :
    (token ≠ .closing ∨ r.depth = 0 → s.lists = r.lists ∧ s.negated = r.negated) ∧
      (token = .closing → 0 < r.depth → r.lists = s.lists ++ [r.current]) := by
  have hpopped {list : List Half} {outer : List (List Half)} (hout : r.outer = list :: outer) :
      r.depth ≠ 0 ∧ ∀ negated, r.lists = lists ⟨list, outer, negated, false⟩ ++ [r.current] := by
    constructor
    · rw [depth, hout]
      exact Nat.succ_ne_zero _
    · intro negated
      simp only [lists, hout, List.reverse_cons]
  cases h with
  | truth => exact ⟨fun _ => ⟨rfl, rfl⟩, fun ht => Token.noConfusion ht⟩
  | junction => exact ⟨fun _ => ⟨rfl, rfl⟩, fun ht => Token.noConfusion ht⟩
  | unopened hout =>
    refine ⟨fun _ => ⟨rfl, rfl⟩, fun _ hd => ?_⟩
    rw [depth, hout] at hd
    exact absurd hd (Nat.lt_irrefl 0)
  | unreduced hout =>
    obtain ⟨hd, hlists⟩ := hpopped hout
    exact ⟨fun h => absurd h (not_or.mpr ⟨not_not_intro rfl, hd⟩), fun _ _ => hlists _⟩
  | unjoined hout =>
    obtain ⟨hd, hlists⟩ := hpopped hout
    exact ⟨fun h => absurd h (not_or.mpr ⟨not_not_intro rfl, hd⟩), fun _ _ => hlists _⟩

theorem Refusal.allLinked {r s : Reducer} {token : Token} {x : Fault} (h : Refusal r token x s)
    (hr : r.AllLinked) : s.AllLinked := by
  intro list hl
  by_cases hd : token = .closing ∧ 0 < r.depth
  · exact hr list (h.keeps.2 hd.1 hd.2 ▸ List.mem_append_left _ hl)
  · have hcase : token ≠ .closing ∨ r.depth = 0 := by
      rcases not_and_or.mp hd with hd | hd
      · exact .inl hd
      · exact .inr (Nat.eq_zero_of_not_pos hd)
    exact hr list ((h.keeps.1 hcase).1 ▸ hl)

/-- **A junction stays behind each half but the last one**, whatever is pushed. -/
theorem allLinked_push {r : Reducer} (h : r.AllLinked) (token : Token) :
    (r.push token).2.AllLinked := by
  rcases step_or_refusal r token with ⟨-, hstep⟩ | ⟨x, -, hrefusal⟩
  · exact hstep.allLinked h
  · exact hrefusal.allLinked h

theorem allLinked_pushOn (tokens : List Token) : (start.pushOn tokens).AllLinked := by
  induction tokens using List.reverseRecOn with
  | nil => exact allLinked_start
  | append_singleton tokens token ih =>
    rw [pushOn_concat]
    exact allLinked_push ih token

/-! ## 3. Open brackets -/

/-- The opening bracket behind `front` has not been closed, and it is the one at depth `d`: so many
    more brackets are opened than closed up to it, itself included. -/
def OpenAt (tokens front : List Token) (d : Nat) : Prop :=
  ∃ back, tokens = front ++ .opening :: back ∧ ¬ OverclosedFrom 0 back ∧
    d + front.count .closing = front.count .opening + 1

theorem count_opening (front back : List Token) :
    (front ++ .opening :: back).count .opening
      = front.count .opening + (back.count .opening + 1) := by
  rw [List.count_append, List.count_cons_self]

theorem count_closing (front back : List Token) :
    (front ++ .opening :: back).count .closing = front.count .closing + back.count .closing := by
  rw [List.count_append, List.count_cons_of_ne (by decide)]

theorem overclosedFrom_concat {tokens : List Token} {token : Token} :
    OverclosedFrom 0 (tokens ++ [token]) ↔ OverclosedFrom 0 tokens ∨
      (tokens ++ [token]).count .opening < (tokens ++ [token]).count .closing := by
  simp only [OverclosedFrom, Nat.zero_add]
  constructor
  · intro h
    obtain ⟨front, hp, hlt⟩ := h
    rcases List.prefix_concat_iff.mp hp with rfl | hp
    · exact .inr hlt
    · exact .inl ⟨front, hp, hlt⟩
  · intro h
    rcases h with ⟨front, hp, hlt⟩ | hlt
    · exact ⟨front, hp.trans (List.prefix_append _ _), hlt⟩
    · exact ⟨_, List.prefix_rfl, hlt⟩

theorem count_closing_le {tokens : List Token} (h : ¬ OverclosedFrom 0 tokens) :
    tokens.count .closing ≤ tokens.count .opening :=
  Nat.le_of_not_lt fun hlt => h ⟨tokens, List.prefix_rfl, by rwa [Nat.zero_add]⟩

/-- A token more closes a bracket too many only if it is a closing bracket, and all are closed. -/
theorem overclosedFrom_concat_iff {tokens : List Token} (h : ¬ OverclosedFrom 0 tokens)
    (token : Token) : OverclosedFrom 0 (tokens ++ [token]) ↔
      token = .closing ∧ tokens.count .closing = tokens.count .opening := by
  have hle := count_closing_le h
  rw [overclosedFrom_concat, or_iff_right h, List.count_append, List.count_append]
  cases token with
  | closing =>
    have hopening : [Token.closing].count .opening = 0 := rfl
    have hclosing : [Token.closing].count .closing = 1 := rfl
    rw [hopening, hclosing]
    constructor
    · exact fun hlt => ⟨rfl, by omega⟩
    · exact fun heq => by omega
  | _ =>
    simp only [List.count_cons, List.count_nil, beq_iff_eq, reduceCtorEq, ↓reduceIte, false_and,
      iff_false, Nat.not_lt]
    omega

/-- **The brackets that are open, one token later**: those from before, but for the innermost one if
    a bracket is closed; and the new one, if one is opened. -/
theorem openAt_concat {tokens front : List Token} {token : Token} {d : Nat} :
    OpenAt (tokens ++ [token]) front d ↔
      (token = .opening ∧ front = tokens ∧
        d + tokens.count .closing = tokens.count .opening + 1) ∨
      (OpenAt tokens front d ∧
        (token = .closing → d + tokens.count .closing < tokens.count .opening)) := by
  constructor
  · intro h
    obtain ⟨back, htokens, hback, hd⟩ := h
    rcases List.eq_nil_or_concat' back with rfl | ⟨back, last, rfl⟩
    · obtain ⟨rfl, htoken⟩ := List.append_inj' htokens rfl
      cases htoken
      exact .inl ⟨rfl, rfl, hd⟩
    · rw [← List.cons_append, ← List.append_assoc] at htokens
      obtain ⟨rfl, htoken⟩ := List.append_inj' htokens rfl
      cases htoken
      have hbefore : ¬ OverclosedFrom 0 back := fun h => hback (overclosedFrom_concat.mpr (.inl h))
      rw [overclosedFrom_concat_iff hbefore] at hback
      refine .inr ⟨⟨back, rfl, hbefore, hd⟩, fun ht => ?_⟩
      have hlt := Nat.lt_of_le_of_ne (count_closing_le hbefore) fun h => hback ⟨ht, h⟩
      rw [count_opening, count_closing]
      omega
  · intro h
    rcases h with ⟨rfl, rfl, hd⟩ | ⟨⟨back, rfl, hback, hd⟩, hlt⟩
    · refine ⟨[], rfl, fun hover => ?_, hd⟩
      obtain ⟨front', hp, hlt⟩ := hover
      rw [List.prefix_nil.mp hp] at hlt
      exact absurd hlt (Nat.not_lt_zero _)
    · refine ⟨back ++ [token], by rw [List.append_assoc, List.cons_append], ?_, hd⟩
      rw [overclosedFrom_concat_iff hback]
      intro ⟨ht, hcount⟩
      have hlt := hlt ht
      rw [count_opening, count_closing] at hlt
      omega

theorem openAt_concat_of_ne {tokens front : List Token} {token : Token} {d : Nat}
    (hopening : token ≠ .opening) (hclosing : token ≠ .closing) :
    OpenAt (tokens ++ [token]) front d ↔ OpenAt tokens front d := by
  rw [openAt_concat, or_iff_right fun h => hopening h.1]
  exact and_iff_left fun h => absurd h hclosing

/-- An open bracket is at a greater depth than the open brackets before it. -/
theorem OpenAt.lt_of_append {tokens front more : List Token} {d e : Nat} (h : OpenAt tokens front d)
    (h' : OpenAt tokens (front ++ more) e) (hne : more ≠ []) : d < e := by
  obtain ⟨back, rfl, hback, hd⟩ := h
  obtain ⟨back', htokens, -, he⟩ := h'
  obtain ⟨first, mid, rfl⟩ := List.exists_cons_of_ne_nil hne
  simp only [List.append_assoc, List.append_cancel_left_eq, List.cons_append,
    List.cons.injEq] at htokens
  obtain ⟨rfl, rfl⟩ := htokens
  have hmid : mid.count .closing ≤ mid.count .opening := by
    refine Nat.le_of_not_lt fun hlt => hback ⟨mid, List.prefix_append _ _, ?_⟩
    rwa [Nat.zero_add]
  rw [count_opening, count_closing] at he
  omega

/-- **No two open brackets are at one depth.** -/
theorem OpenAt.unique {tokens front front' : List Token} {d : Nat} (h : OpenAt tokens front d)
    (h' : OpenAt tokens front' d) : front = front' := by
  obtain ⟨back, htokens, -⟩ := id h
  obtain ⟨back', htokens', -⟩ := id h'
  have hp : front <+: tokens := htokens ▸ List.prefix_append _ _
  have hp' : front' <+: tokens := htokens' ▸ List.prefix_append _ _
  rcases List.prefix_or_prefix_of_prefix hp hp' with ⟨more, rfl⟩ | ⟨more, rfl⟩
  · refine Classical.byContradiction fun hne => Nat.lt_irrefl d (h.lt_of_append h' fun hm => hne ?_)
    rw [hm, List.append_nil]
  · refine Classical.byContradiction fun hne => Nat.lt_irrefl d (h'.lt_of_append h fun hm => hne ?_)
    rw [hm, List.append_nil]

/-! ## 4. As long as no token is refused -/

/-- None of the tokens is refused, from the start on. -/
def AllTaken (tokens : List Token) : Prop :=
  ∀ front token, front ++ [token] <+: tokens → ((start.pushOn front).push token).1 = none

theorem allTaken_concat {tokens : List Token} {token : Token} (h : AllTaken (tokens ++ [token])) :
    AllTaken tokens ∧ Step (start.pushOn tokens) token (start.pushOn (tokens ++ [token])) := by
  refine ⟨fun front t hp => h front t (hp.trans (List.prefix_append _ _)), ?_⟩
  rw [← push_eq_none_iff, pushOn_concat, ← h tokens token List.prefix_rfl]

/-- **What the state says** of the tokens taken: there is a list for each open bracket and one more;
    the depths are those of the open brackets behind a negation, in order; and a negation is pending
    if it was the last token. -/
structure Tracks (tokens : List Token) (s : Rows) : Prop where
  length : s.lists.length + tokens.count .closing = tokens.count .opening + 1
  open_iff : ∀ d, (∃ front, OpenAt tokens front d) ↔ 0 < d ∧ d < s.lists.length
  sorted : s.negated.Pairwise (· < ·)
  negated_iff : ∀ d, d ∈ s.negated ↔
    ∃ front, OpenAt tokens front d ∧ front.getLast? = some .negation
  pending_iff : s.pending = true ↔ tokens.getLast? = some .negation

theorem not_openAt_nil {front : List Token} {d : Nat} : ¬ OpenAt [] front d := by
  intro h
  obtain ⟨back, htokens, -⟩ := h
  exact absurd htokens (List.append_ne_nil_of_right_ne_nil _ (List.cons_ne_nil _ _)).symm

theorem tracks_start : Tracks [] start.rows where
  length := rfl
  open_iff d := by
    constructor
    · intro h
      obtain ⟨front, h⟩ := h
      exact absurd h not_openAt_nil
    · intro h
      exact absurd h.2 (Nat.not_lt.mpr h.1)
  sorted := .nil
  negated_iff d := by
    constructor
    · exact fun h => absurd h List.not_mem_nil
    · intro h
      obtain ⟨front, h, -⟩ := h
      exact absurd h not_openAt_nil
  pending_iff := by decide

theorem Tracks.lt_of_mem {tokens : List Token} {s : Rows} (h : Tracks tokens s) {d : Nat}
    (hd : d ∈ s.negated) : d < s.lists.length := by
  obtain ⟨front, hopen, -⟩ := (h.negated_iff d).mp hd
  exact ((h.open_iff d).mp ⟨front, hopen⟩).2

/-- A token that is no bracket opens and closes none. -/
theorem Tracks.concat {tokens : List Token} {token : Token} {s t : Rows} (h : Tracks tokens s)
    (hopening : token ≠ .opening) (hclosing : token ≠ .closing)
    (hlength : t.lists.length = s.lists.length) (hnegated : t.negated = s.negated)
    (hpending : t.pending = true ↔ token = .negation) : Tracks (tokens ++ [token]) t where
  length := by
    have hno {u : Token} (hu : token ≠ u) : [token].count u = 0 :=
      List.count_eq_zero_of_not_mem fun hm => hu (List.mem_singleton.mp hm).symm
    rw [hlength, List.count_append, List.count_append, hno hopening, hno hclosing]
    exact h.length
  open_iff d := by
    simp only [openAt_concat_of_ne hopening hclosing, hlength]
    exact h.open_iff d
  sorted := hnegated ▸ h.sorted
  negated_iff d := by
    simp only [openAt_concat_of_ne hopening hclosing, hnegated]
    exact h.negated_iff d
  pending_iff := by
    rw [hpending, List.getLast?_concat, Option.some.injEq]

/-- An opening bracket is at the depth that there were lists; behind a negation it is inverted. -/
theorem Tracks.opening {tokens : List Token} {s t : Rows} (h : Tracks tokens s)
    (hne : 0 < s.lists.length) (hlength : t.lists.length = s.lists.length + 1)
    (hnegated : t.negated = if s.pending then s.negated ++ [s.lists.length] else s.negated)
    (hpending : t.pending = false) : Tracks (tokens ++ [.opening]) t where
  length := by
    have hcount := h.length
    rw [hlength, count_opening, count_closing, List.count_nil, List.count_nil]
    omega
  open_iff d := by
    have hcount := h.length
    have hopen := h.open_iff d
    simp only [openAt_concat, hlength, reduceCtorEq, true_and, false_implies, and_true, exists_or,
      hopen, exists_eq_left]
    omega
  sorted := by
    rw [hnegated]
    split
    · refine List.pairwise_append.mpr ⟨h.sorted, List.pairwise_singleton _ _, fun d hd e he => ?_⟩
      rw [List.mem_singleton.mp he]
      exact h.lt_of_mem hd
    · exact h.sorted
  negated_iff d := by
    have hcount := h.length
    have hdepth : d + tokens.count .closing = tokens.count .opening + 1 ↔ d = s.lists.length := by
      omega
    simp only [openAt_concat, reduceCtorEq, true_and, false_implies, and_true, or_and_right,
      exists_or, and_assoc, exists_eq_left, ← h.negated_iff, ← h.pending_iff, hnegated, hdepth]
    split
    · rename_i hp
      simp only [List.mem_append, List.mem_singleton, hp, and_true, or_comm]
    · rename_i hp
      simp only [hp, Bool.false_eq_true, and_false, false_or]
  pending_iff := by
    simp only [hpending, List.getLast?_concat, Option.some.injEq, reduceCtorEq]

/-- Depths that are in order and not beyond `e` lose just `e` when it is taken off their end. -/
theorem mem_dropLast_iff {depths : List Nat} (h : depths.Pairwise (· < ·)) {d e : Nat}
    (hle : ∀ e' ∈ depths, e' ≤ e) :
    (d ∈ if depths.getLast? = some e then depths.dropLast else depths) ↔ d ∈ depths ∧ d < e := by
  rcases List.eq_nil_or_concat' depths with rfl | ⟨front, last, rfl⟩
  · simp only [List.dropLast_nil, ite_self, List.not_mem_nil, false_and]
  · have hlt : ∀ d ∈ front, d < last := fun d hd =>
      (List.pairwise_append.mp h).2.2 d hd last (List.mem_singleton_self _)
    have hlast : last ≤ e := hle last (List.mem_append_right _ (List.mem_singleton_self _))
    simp only [List.getLast?_concat, Option.some.injEq, List.dropLast_concat]
    split
    · rename_i he
      subst he
      simp only [List.mem_append, List.mem_singleton]
      constructor
      · exact fun hd => ⟨.inl hd, hlt d hd⟩
      · exact fun hd => hd.1.resolve_right (Nat.ne_of_lt hd.2)
    · rename_i he
      refine (and_iff_left_of_imp fun hd => ?_).symm
      rcases List.mem_append.mp hd with hd | hd
      · exact Nat.lt_of_lt_of_le (hlt d hd) hlast
      · rw [List.mem_singleton.mp hd]
        exact Nat.lt_of_le_of_ne hlast he

/-- A closing bracket closes the innermost one; its depth goes, if it was there. -/
theorem Tracks.closing {tokens : List Token} {s t : Rows} (h : Tracks tokens s)
    (hlength : t.lists.length + 1 = s.lists.length)
    (hnegated : t.negated =
      if s.negated.getLast? = some t.lists.length then s.negated.dropLast else s.negated)
    (hpending : t.pending = false) : Tracks (tokens ++ [.closing]) t where
  length := by
    have hcount := h.length
    have hopening : [Token.closing].count .opening = 0 := rfl
    have hclosing : [Token.closing].count .closing = 1 := rfl
    rw [List.count_append, List.count_append, hopening, hclosing]
    omega
  open_iff d := by
    have hcount := h.length
    have hopen := h.open_iff d
    simp only [openAt_concat, reduceCtorEq, false_and, false_or, true_implies, exists_and_right,
      hopen]
    omega
  sorted := by
    rw [hnegated]
    split
    · exact h.sorted.sublist (List.dropLast_sublist _)
    · exact h.sorted
  negated_iff d := by
    have hcount := h.length
    have hdepth : d + tokens.count .closing < tokens.count .opening ↔ d < t.lists.length := by omega
    have hle : ∀ e ∈ s.negated, e ≤ t.lists.length := fun e he => by
      have hlt := h.lt_of_mem he
      omega
    rw [hnegated, mem_dropLast_iff h.sorted hle, h.negated_iff, ← exists_and_right]
    simp only [openAt_concat, reduceCtorEq, false_and, false_or, true_implies, hdepth,
      and_right_comm]
  pending_iff := by
    simp only [hpending, List.getLast?_concat, Option.some.injEq, reduceCtorEq]

/-- **A token taken leaves a state that says so.** -/
theorem Tracks.step {tokens : List Token} {token : Token} {r s : Reducer}
    (h : Tracks tokens r.rows) (hstep : Step r token s) : Tracks (tokens ++ [token]) s.rows := by
  cases hstep with
  | truth v hj =>
    refine h.concat nofun nofun ?_ rfl (iff_of_false Bool.false_ne_true nofun)
    exact (length_lists _).trans (length_lists r).symm
  | junction j hc =>
    refine h.concat nofun nofun ?_ rfl (iff_of_false Bool.false_ne_true nofun)
    exact (length_lists _).trans (length_lists r).symm
  | negation => exact h.concat nofun nofun rfl rfl (iff_of_true rfl rfl)
  | opening =>
    refine h.opening ((length_lists r).symm ▸ Nat.succ_pos _) ?_ ?_ rfl
    · exact (length_lists _).trans (congrArg (· + 1) (length_lists r).symm)
    · have hlen : r.rows.lists.length = r.depth + 1 := length_lists r
      rw [hlen]
      show List.reverse (if r.pending then _ else _)
        = if r.pending then r.negated.reverse ++ _ else r.negated.reverse
      split
      · exact List.reverse_cons
      · rfl
  | @closing list outer v hout hv hj =>
    have hd : r.depth = outer.length + 1 := by rw [depth, hout, List.length_cons]
    have hlen : r.rows.lists.length = r.depth + 1 := length_lists r
    have hbehind (current : List Half) (negated : List Nat) :
        (rows ⟨current, outer, negated, false⟩).lists.length = r.depth :=
      (length_lists _).trans hd.symm
    refine h.closing ?_ ?_ rfl
    · exact (congrArg (· + 1) (hbehind _ _)).trans hlen.symm
    · rw [hbehind]
      simp only [rows, List.getLast?_reverse, List.dropLast_reverse]
      split <;> rfl

/-- The induction is on the last token, as the state says nothing of the tokens to come. -/
theorem tracks_of_allTaken {tokens : List Token} (h : AllTaken tokens) :
    Tracks tokens (start.pushOn tokens).rows := by
  induction tokens using List.reverseRecOn with
  | nil => exact tracks_start
  | append_singleton tokens token ih =>
    obtain ⟨hbefore, hstep⟩ := allTaken_concat h
    exact (ih hbefore).step hstep

/-- **What a reducer keeps, whatever it is given.** With its lists in one row, there is always one:
    every push and the end have an answer, the same as before. In each list there is a junction behind
    each half but the last one. A push that is refused leaves all lists and depths as they were, but
    for a bracket closed at a depth, which takes off the innermost list and no other. As long as no
    push was refused, there is a list for each open bracket and one more, as no two are at one depth;
    the depths are in order those of the open brackets behind a negation; and a negation is pending
    exactly behind one. -/
theorem pushOn_keeps (tokens : List Token) :
    let r := start.pushOn tokens
    (Rows.start.pushOn? tokens = some r.rows ∧ r.rows.lists ≠ [] ∧
        (∀ token, r.rows.push? token = some ((r.push token).1, (r.push token).2.rows)) ∧
        r.rows.finish? = some r.finish) ∧
      (∀ list ∈ r.rows.lists, ∀ half ∈ list.dropLast, half.junction ≠ none) ∧
      (∀ token x, (r.push token).1 = some x →
        (token ≠ .closing ∨ r.rows.depth? = some 0 →
          (r.push token).2.rows.lists = r.rows.lists ∧
          (r.push token).2.rows.negated = r.rows.negated) ∧
        (∀ d, token = .closing → r.rows.depth? = some (d + 1) →
          (r.push token).2.rows.lists = r.rows.lists.dropLast)) ∧
      (AllTaken tokens → Tracks tokens r.rows ∧
        ∀ d front front', OpenAt tokens front d → OpenAt tokens front' d → front = front') := by
  intro r
  refine ⟨⟨rows_pushOn start tokens, ?_, rows_push r, rows_finish r⟩, allLinked_pushOn tokens, ?_,
    fun h => ⟨tracks_of_allTaken h, fun d front front' => OpenAt.unique⟩⟩
  · exact List.append_ne_nil_of_right_ne_nil _ (List.cons_ne_nil _ _)
  · intro token x hx
    obtain ⟨hkeep, hpop⟩ := ((push_eq_some_iff r _ token x).mp (Prod.ext hx rfl)).keeps
    simp only [rows_depth, Option.some.injEq]
    refine ⟨fun h => ?_, fun d ht hd => ?_⟩
    · obtain ⟨hlists, hnegated⟩ := hkeep h
      exact ⟨hlists, congrArg List.reverse hnegated⟩
    · exact (hpop ht (hd ▸ Nat.succ_pos d) ▸ List.dropLast_concat).symm

/-- After a refusal the depths do not say it any more: the bracket closed too soon leaves its depth
    behind, and the next one there counts as inverted. -/
example : (start.pushOn [.negation, .opening, .closing, .opening]).negated = [1] := rfl

end Reducer

end Verdict
