import Verdict.Proofs.Precedence

/-!
# One token pushed

`Reducer.push` answers with a fault or without one. This file says once, token by token, what a push
without a fault asks for and what it leaves behind (`Step`), and the same for a push with a fault
(`Refusal`), so that no later proof opens the push again.

* `push_eq_none_iff` -- a push without a fault is a step, and the other way round.
* `push_eq_some_iff` -- a push with a fault is a refusal, and the other way round.
* `pushAll_cons_eq_ok_iff`, `pushAll_append` -- a row of tokens is taken one by one.
-/

namespace Verdict

namespace Reducer

/-! ## 1. The end of a list -/

/-- A value may come next: the list is empty, or its last half has a junction. -/
def Joinable (halves : List Half) : Prop := ∀ v, halves.getLast? ≠ some (.last v)

theorem joinable_nil : Joinable [] := by
  intro v h
  cases h

theorem joinable_append_some (halves : List Half) (v : Bool) (j : Junction) :
    Joinable (halves ++ [⟨v, some j⟩]) := by
  intro w h
  rw [List.getLast?_concat] at h
  cases h

theorem not_joinable_append_last (halves : List Half) (v : Bool) :
    ¬ Joinable (halves ++ [.last v]) :=
  fun h => h v List.getLast?_concat

theorem append_eq_ok_iff (r s : Reducer) (v : Bool) :
    r.append v = .ok s ↔ Joinable r.current ∧ s = { r with current := r.current ++ [.last v] } := by
  simp only [append]
  split
  · rename_i before h
    simp only [reduceCtorEq, false_iff]
    exact fun hj => hj.1 before h
  · rename_i h
    have hj : Joinable r.current := fun w hw => h w hw
    simp only [Except.ok.injEq, hj, true_and]
    exact eq_comm

theorem join_eq_ok_iff (r s : Reducer) (j : Junction) :
    r.join j = .ok s ↔ ∃ halves v, r.current = halves ++ [.last v] ∧
      s = { r with current := halves ++ [⟨v, some j⟩] } := by
  simp only [join]
  split
  · rename_i v h
    obtain ⟨halves, hc⟩ := List.getLast?_eq_some_iff.mp h
    simp only [Except.ok.injEq, hc, List.dropLast_concat]
    constructor
    · intro hs
      exact ⟨halves, v, rfl, hs.symm⟩
    · intro h
      obtain ⟨halves', v', hc', rfl⟩ := h
      obtain ⟨rfl, hv⟩ := List.append_inj' hc' rfl
      cases hv
      rfl
  · rename_i h
    simp only [reduceCtorEq, false_iff]
    intro hj
    obtain ⟨halves, v, hc, -⟩ := hj
    exact h v (by rw [hc]; exact List.getLast?_concat)

/-! ## 2. Steps -/

/-- Is the innermost open bracket one behind a negation? -/
abbrev Negates (r : Reducer) : Prop := r.negated.head? = some r.depth

/-- **A token taken without a fault**, from one reducer to the next. -/
inductive Step : Reducer → Token → Reducer → Prop
  | truth {r : Reducer} (v : Bool) (h : Joinable r.current) :
      Step r (.truth v) ⟨r.current ++ [.last v], r.outer, r.negated, false⟩
  | junction {r : Reducer} {halves : List Half} {v : Bool} (j : Junction)
      (h : r.current = halves ++ [.last v]) :
      Step r (.junction j) ⟨halves ++ [⟨v, some j⟩], r.outer, r.negated, false⟩
  | negation (r : Reducer) : Step r .negation { r with pending := true }
  | opening (r : Reducer) :
      Step r .opening ⟨[], r.current :: r.outer,
        if r.pending then (r.depth + 1) :: r.negated else r.negated, false⟩
  | closing {r : Reducer} {list : List Half} {outer : List (List Half)} {v : Bool}
      (hout : r.outer = list :: outer) (hv : reduce r.current = .ok v) (hj : Joinable list) :
      Step r .closing ⟨list ++ [.last (if r.Negates then !v else v)], outer,
        if r.Negates then r.negated.tail else r.negated, false⟩

theorem attempt_eq_none_iff (r s : Reducer) (step : Except Fault Reducer) :
    r.attempt step = (none, s) ↔ step = .ok s := by
  cases step with
  | error x => simp only [attempt, Prod.mk.injEq, reduceCtorEq, false_and]
  | ok t => simp only [attempt, Prod.mk.injEq, true_and, Except.ok.injEq]

theorem closeBracket_eq_none_iff (r s : Reducer) :
    r.closeBracket = (none, s) ↔ ∃ list outer v, r.outer = list :: outer ∧
      reduce r.current = .ok v ∧ Joinable list ∧
      s = ⟨list ++ [.last (if r.Negates then !v else v)], outer,
        if r.Negates then r.negated.tail else r.negated, r.pending⟩ := by
  cases hout : r.outer with
  | nil =>
    simp only [closeBracket, hout, Prod.mk.injEq, reduceCtorEq, false_and, exists_false]
  | cons list outer =>
    cases hv : reduce r.current with
    | error x =>
      simp only [closeBracket, hout, hv, Prod.mk.injEq, reduceCtorEq, false_and, and_false,
        exists_false]
    | ok v =>
      simp only [closeBracket, hout, hv, beq_iff_eq]
      split
      · rename_i x h
        simp only [Prod.mk.injEq, reduceCtorEq, false_and, false_iff]
        intro hs
        obtain ⟨_, _, _, ⟨⟩, ⟨⟩, hj, -⟩ := hs
        rw [(append_eq_ok_iff _ _ _).mpr ⟨hj, rfl⟩] at h
        cases h
      · rename_i t h
        obtain ⟨hj, rfl⟩ := (append_eq_ok_iff _ _ _).mp h
        simp only [Prod.mk.injEq, true_and]
        constructor
        · intro hs
          exact ⟨list, outer, v, rfl, rfl, hj, hs.symm⟩
        · intro hs
          obtain ⟨_, _, _, ⟨⟩, ⟨⟩, -, rfl⟩ := hs
          rfl

theorem push_eq_none_iff (r s : Reducer) (token : Token) :
    r.push token = (none, s) ↔ Step r token s := by
  constructor
  · intro h
    cases token with
    | truth v =>
      obtain ⟨hj, rfl⟩ := (append_eq_ok_iff _ _ _).mp ((attempt_eq_none_iff _ _ _).mp h)
      exact .truth v hj
    | junction j =>
      obtain ⟨halves, v, hc, rfl⟩ := (join_eq_ok_iff _ _ _).mp ((attempt_eq_none_iff _ _ _).mp h)
      exact .junction j hc
    | negation =>
      cases h
      exact .negation r
    | opening =>
      cases h
      exact .opening r
    | closing =>
      obtain ⟨list, outer, v, hout, hv, hj, rfl⟩ := (closeBracket_eq_none_iff _ _).mp h
      exact .closing hout hv hj
  · intro h
    cases h with
    | truth v hj => exact (attempt_eq_none_iff _ _ _).mpr ((append_eq_ok_iff _ _ _).mpr ⟨hj, rfl⟩)
    | junction j hc =>
      exact (attempt_eq_none_iff _ _ _).mpr ((join_eq_ok_iff _ _ _).mpr ⟨_, _, hc, rfl⟩)
    | negation => rfl
    | opening => rfl
    | closing hout hv hj =>
      exact (closeBracket_eq_none_iff _ _).mpr ⟨_, _, _, hout, hv, hj, rfl⟩

/-! ## 3. Refusals -/

theorem append_eq_error_iff (r : Reducer) (v : Bool) (x : Fault) :
    r.append v = .error x ↔
      ∃ front w, r.current = front ++ [.last w] ∧ x = .badChain (.notJoined w v) := by
  simp only [append]
  split
  · rename_i w h
    obtain ⟨front, hc⟩ := List.getLast?_eq_some_iff.mp h
    simp only [Except.error.injEq, hc]
    constructor
    · intro hx
      exact ⟨front, w, rfl, hx.symm⟩
    · intro hw
      obtain ⟨_, _, hc', rfl⟩ := hw
      cases (List.append_inj' hc' rfl).2
      rfl
  · rename_i h
    simp only [reduceCtorEq, false_iff]
    intro hw
    obtain ⟨front, w, hc, -⟩ := hw
    exact h w (by rw [hc]; exact List.getLast?_concat)

theorem join_eq_error_iff (r : Reducer) (j : Junction) (x : Fault) :
    r.join j = .error x ↔ Joinable r.current ∧ x = .badChain (.noLeftSide j) := by
  simp only [join]
  split
  · rename_i v h
    simp only [reduceCtorEq, false_iff]
    exact fun hj => hj.1 v h
  · rename_i h
    have hj : Joinable r.current := fun v hv => h v hv
    simp only [Except.error.injEq, hj, true_and]
    exact eq_comm

/-- **A token refused**: the fault, and the reducer it leaves behind. A closing bracket is refused for
    three reasons; for the last two its list is gone. -/
inductive Refusal : Reducer → Token → Fault → Reducer → Prop
  | truth {r : Reducer} {front : List Half} {w : Bool} (v : Bool)
      (h : r.current = front ++ [.last w]) :
      Refusal r (.truth v) (.badChain (.notJoined w v)) { r with pending := false }
  | junction {r : Reducer} (j : Junction) (h : Joinable r.current) :
      Refusal r (.junction j) (.badChain (.noLeftSide j)) { r with pending := false }
  | unopened {r : Reducer} (h : r.outer = []) :
      Refusal r .closing .unbalancedBrackets { r with pending := false }
  | unreduced {r : Reducer} {list : List Half} {outer : List (List Half)} {x : Fault}
      (hout : r.outer = list :: outer) (hx : reduce r.current = .error x) :
      Refusal r .closing x ⟨list, outer, r.negated, false⟩
  | unjoined {r : Reducer} {list front : List Half} {outer : List (List Half)} {v w : Bool}
      (hout : r.outer = list :: outer) (hv : reduce r.current = .ok v)
      (hlist : list = front ++ [.last w]) :
      Refusal r .closing (.badChain (.notJoined w (if r.Negates then !v else v)))
        ⟨list, outer, if r.Negates then r.negated.tail else r.negated, false⟩

theorem attempt_eq_some_iff (r s : Reducer) (step : Except Fault Reducer) (x : Fault) :
    r.attempt step = (some x, s) ↔ step = .error x ∧ s = r := by
  cases step with
  | error y =>
    simp only [attempt, Prod.mk.injEq, Option.some.injEq, Except.error.injEq]
    exact and_congr_right fun _ => eq_comm
  | ok t => simp only [attempt, Prod.mk.injEq, reduceCtorEq, false_and]

theorem closeBracket_eq_some_iff (r s : Reducer) (x : Fault) :
    r.closeBracket = (some x, s) ↔
      (r.outer = [] ∧ x = .unbalancedBrackets ∧ s = r) ∨
      ∃ list outer, r.outer = list :: outer ∧
        ((reduce r.current = .error x ∧ s = ⟨list, outer, r.negated, r.pending⟩) ∨
          ∃ v front w, reduce r.current = .ok v ∧ list = front ++ [.last w] ∧
            x = .badChain (.notJoined w (if r.Negates then !v else v)) ∧
            s = ⟨list, outer, if r.Negates then r.negated.tail else r.negated, r.pending⟩) := by
  cases hout : r.outer with
  | nil =>
    simp only [closeBracket, hout, Prod.mk.injEq, Option.some.injEq, true_and, reduceCtorEq,
      false_and, exists_false, or_false]
    exact and_congr eq_comm eq_comm
  | cons list outer =>
    cases hv : reduce r.current with
    | error y =>
      simp only [closeBracket, hout, hv, Prod.mk.injEq, Option.some.injEq, reduceCtorEq, false_and,
        exists_false, or_false, false_or, Except.error.injEq]
      constructor
      · intro h
        exact ⟨list, outer, rfl, h.1, h.2.symm⟩
      · intro h
        obtain ⟨_, _, ⟨⟩, rfl, rfl⟩ := h
        exact ⟨rfl, rfl⟩
    | ok v =>
      simp only [closeBracket, hout, hv, beq_iff_eq, reduceCtorEq, false_and, false_or,
        Except.ok.injEq]
      split
      · rename_i y h
        obtain ⟨front, w, hlist, rfl⟩ := (append_eq_error_iff _ _ _).mp h
        simp only [Prod.mk.injEq, Option.some.injEq]
        constructor
        · intro hs
          exact ⟨list, outer, rfl, v, front, w, rfl, hlist, hs.1.symm, hs.2.symm⟩
        · intro hs
          obtain ⟨_, _, ⟨⟩, _, _, _, rfl, hlist', rfl, rfl⟩ := hs
          cases (List.append_inj' (hlist.symm.trans hlist') rfl).2
          exact ⟨rfl, rfl⟩
      · rename_i t h
        have hj := ((append_eq_ok_iff _ _ _).mp h).1
        simp only [Prod.mk.injEq, reduceCtorEq, false_and, false_iff]
        intro hs
        obtain ⟨_, _, ⟨⟩, _, front, w, -, rfl, -⟩ := hs
        exact not_joinable_append_last front w hj

theorem push_eq_some_iff (r s : Reducer) (token : Token) (x : Fault) :
    r.push token = (some x, s) ↔ Refusal r token x s := by
  constructor
  · intro h
    cases token with
    | truth v =>
      obtain ⟨happend, rfl⟩ := (attempt_eq_some_iff _ _ _ _).mp h
      obtain ⟨front, w, hc, rfl⟩ := (append_eq_error_iff _ _ _).mp happend
      exact .truth v hc
    | junction j =>
      obtain ⟨hjoin, rfl⟩ := (attempt_eq_some_iff _ _ _ _).mp h
      obtain ⟨hc, rfl⟩ := (join_eq_error_iff _ _ _).mp hjoin
      exact .junction j hc
    | negation => cases h
    | opening => cases h
    | closing =>
      rcases (closeBracket_eq_some_iff _ _ _).mp h with
        ⟨hout, rfl, rfl⟩ | ⟨list, outer, hout, ⟨hx, rfl⟩ | ⟨v, front, w, hv, hlist, rfl, rfl⟩⟩
      · exact .unopened hout
      · exact .unreduced hout hx
      · exact .unjoined hout hv hlist
  · intro h
    cases h with
    | truth v hc =>
      exact (attempt_eq_some_iff _ _ _ _).mpr ⟨(append_eq_error_iff _ _ _).mpr ⟨_, _, hc, rfl⟩, rfl⟩
    | junction j hc =>
      exact (attempt_eq_some_iff _ _ _ _).mpr ⟨(join_eq_error_iff _ _ _).mpr ⟨hc, rfl⟩, rfl⟩
    | unopened hout => exact (closeBracket_eq_some_iff _ _ _).mpr (.inl ⟨hout, rfl, rfl⟩)
    | unreduced hout hx =>
      exact (closeBracket_eq_some_iff _ _ _).mpr (.inr ⟨_, _, hout, .inl ⟨hx, rfl⟩⟩)
    | unjoined hout hv hlist =>
      exact (closeBracket_eq_some_iff _ _ _).mpr
        (.inr ⟨_, _, hout, .inr ⟨_, _, _, hv, hlist, rfl, rfl⟩⟩)

/-- Every push is a step or a refusal. -/
theorem step_or_refusal (r : Reducer) (token : Token) :
    ((r.push token).1 = none ∧ Step r token (r.push token).2) ∨
      ∃ x, (r.push token).1 = some x ∧ Refusal r token x (r.push token).2 := by
  cases hp : r.push token with
  | mk fault s =>
    cases fault with
    | none => exact .inl ⟨rfl, (push_eq_none_iff _ _ _).mp hp⟩
    | some x => exact .inr ⟨x, rfl, (push_eq_some_iff _ _ _ _).mp hp⟩

/-! ## 4. Rows of tokens -/

theorem pushAll_cons_eq_ok_iff (r u : Reducer) (token : Token) (tokens : List Token) :
    r.pushAll (token :: tokens) = .ok u ↔ ∃ s, Step r token s ∧ s.pushAll tokens = .ok u := by
  simp only [pushAll]
  split
  · rename_i x s h
    simp only [reduceCtorEq, false_iff]
    intro hu
    obtain ⟨s', hs, -⟩ := hu
    rw [(push_eq_none_iff _ _ _).mpr hs] at h
    cases h
  · rename_i s h
    constructor
    · exact fun hu => ⟨s, (push_eq_none_iff _ _ _).mp h, hu⟩
    · intro hu
      obtain ⟨s', hs, hu⟩ := hu
      rw [(push_eq_none_iff _ _ _).mpr hs] at h
      cases h
      exact hu

theorem pushAll_append {r s : Reducer} {tokens : List Token} (h : r.pushAll tokens = .ok s)
    (more : List Token) : r.pushAll (tokens ++ more) = s.pushAll more := by
  induction tokens generalizing r with
  | nil =>
    cases h
    rfl
  | cons token tokens ih =>
    simp only [List.cons_append, pushAll] at h ⊢
    split at h
    · cases h
    · rename_i t ht
      exact ih h

end Reducer

end Verdict
