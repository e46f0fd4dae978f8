import Mathlib.Data.List.SplitBy
import Verdict.Reduction

/-!
# What a list of halves is worth

`reduce` takes a list of halves in one pass and never looks back: an `or` that has to wait becomes a
debt. This file says what comes out, without a pass and without a debt: the list falls into RUNS, cut
behind each `or`; a run holds when all its values do, and the list holds when one of its runs does.

* `Chained` -- the lists that can be reduced: a junction behind each half but the last.
* `reduce_eq_ok_iff` -- `reduce` answers on these lists and on no others, with `orOfAnds`.
* `runs_eq_map_stretches` -- the runs are the longest stretches of halves that `and` joins.
* `reduce_decides` -- **the answer to every list**, a value or a fault, by these stretches.
-/

namespace Verdict

/-! ## 1. Runs -/

/-- The values of a list of halves, cut behind each `or`. -/
def runs : List Half → List (List Bool)
  | [] => []
  | half :: halves =>
    if half.junction = some .or then [half.value] :: runs halves
    else
      match runs halves with
      | [] => [[half.value]]
      | run :: more => (half.value :: run) :: more

/-- **The worth of a list of halves**: one of its runs holds, a run being values that all hold. -/
def orOfAnds (halves : List Half) : Bool := (runs halves).any fun run => run.all id

theorem orOfAnds_last (v : Bool) : orOfAnds [⟨v, none⟩] = v := by
  simp only [orOfAnds, runs, reduceCtorEq, ↓reduceIte, List.any_cons, List.all_cons, List.all_nil,
    List.any_nil, id_eq, Bool.and_true, Bool.or_false]

theorem orOfAnds_or (v : Bool) (halves : List Half) :
    orOfAnds (⟨v, some .or⟩ :: halves) = (v || orOfAnds halves) := by
  simp only [orOfAnds, runs, ↓reduceIte, List.any_cons, List.all_cons, List.all_nil, id_eq,
    Bool.and_true]

/-- Two values joined by `and` are worth as much as their conjunction in their place. -/
theorem orOfAnds_and (v w : Bool) (j : Option Junction) (halves : List Half) :
    orOfAnds (⟨v, some .and⟩ :: ⟨w, j⟩ :: halves) = orOfAnds (⟨v && w, j⟩ :: halves) := by
  have hne : ¬ (some Junction.and = some Junction.or) := by decide
  by_cases hj : j = some .or
  · simp only [orOfAnds, runs, hne, hj, ↓reduceIte, List.any_cons, List.all_cons, List.all_nil,
      id_eq, Bool.and_true]
  · simp only [orOfAnds, runs, hne, hj, ↓reduceIte]
    cases runs halves <;>
      simp only [List.any_cons, List.all_cons, List.all_nil, id_eq, Bool.and_true, Bool.and_assoc]

/-! ## 2. Lists that can be reduced -/

/-- A junction behind each half but the last one. -/
inductive Chained : List Half → Prop
  | last (v : Bool) : Chained [⟨v, none⟩]
  | cons (v : Bool) (j : Junction) {halves : List Half} (h : Chained halves) :
      Chained (⟨v, some j⟩ :: halves)

theorem chained_cons_some {v : Bool} {j : Junction} {halves : List Half} :
    Chained (⟨v, some j⟩ :: halves) ↔ Chained halves := by
  constructor
  · intro h
    cases h with
    | cons _ _ h => exact h
  · exact .cons v j

theorem not_chained_cons_none {v : Bool} {next : Half} {halves : List Half} :
    ¬ Chained (⟨v, none⟩ :: next :: halves) := by
  intro h
  cases h

/-- Whether a list can be reduced does not depend on the value of its first half. -/
theorem chained_cons_congr {v w : Bool} {j : Option Junction} {halves : List Half} :
    Chained (⟨v, j⟩ :: halves) ↔ Chained (⟨w, j⟩ :: halves) := by
  cases j with
  | some j => rw [chained_cons_some, chained_cons_some]
  | none =>
    cases halves with
    | nil => exact ⟨fun _ => .last w, fun _ => .last v⟩
    | cons next halves =>
      exact ⟨fun h => absurd h not_chained_cons_none, fun h => absurd h not_chained_cons_none⟩

/-- Two values that an `or` joins can be taken together, unless an `and` comes next. -/
theorem orOfAnds_or_or {v w : Bool} {j : Option Junction} {halves : List Half}
    (hj : j ≠ some .and) (h : Chained (⟨w, j⟩ :: halves)) :
    orOfAnds (⟨v, some .or⟩ :: ⟨w, j⟩ :: halves) = orOfAnds (⟨v || w, j⟩ :: halves) := by
  rw [orOfAnds_or]
  cases h with
  | last => rw [orOfAnds_last, orOfAnds_last]
  | cons _ j _ =>
    cases j with
    | and => exact absurd rfl hj
    | or => rw [orOfAnds_or, orOfAnds_or, Bool.or_assoc]

/-! ## 3. The pass -/

theorem settle_settle (debt : Option Bool) (v w : Bool) :
    settle (some (settle debt v)) w = settle debt (v || w) := by
  cases debt with
  | none => rfl
  | some owed => exact Bool.or_assoc owed v w

/-- The pass from `current` on: the debt is one more run. -/
theorem reduceFrom_eq_ok_iff (debt : Option Bool) (current : Half) (halves : List Half) (b : Bool) :
    reduceFrom debt current halves = .ok b ↔
      Chained (current :: halves) ∧ settle debt (orOfAnds (current :: halves)) = b := by
  induction halves generalizing debt current with
  | nil =>
    obtain ⟨v, j⟩ := current
    cases j with
    | none =>
      simp only [reduceFrom, Except.ok.injEq, orOfAnds_last]
      exact ⟨fun h => ⟨.last v, h⟩, fun h => h.2⟩
    | some j =>
      simp only [reduceFrom, reduceCtorEq, false_iff, chained_cons_some]
      intro h
      cases h.1
  | cons next halves ih =>
    obtain ⟨v, j⟩ := current
    obtain ⟨w, k⟩ := next
    cases j with
    | none =>
      simp only [reduceFrom, Half.combine, reduceCtorEq, false_iff]
      exact fun h => not_chained_cons_none h.1
    | some j =>
      rw [chained_cons_some]
      by_cases hwait : j = .or ∧ k = some .and
      · -- the `or` has to wait: its left side goes into the debt
        simp only [reduceFrom, Half.combine, hwait, and_self, ↓reduceIte]
        rw [ih, settle_settle, orOfAnds_or]
      · simp only [reduceFrom, Half.combine, hwait, ↓reduceIte]
        rw [ih, chained_cons_congr (w := w)]
        refine and_congr_right fun h => ?_
        cases j with
        | and => rw [orOfAnds_and, Junction.apply_and]
        | or => rw [orOfAnds_or_or (fun hk => hwait ⟨rfl, hk⟩) h, Junction.apply_or]

/-- **What `reduce` answers**, and on which lists. -/
theorem reduce_eq_ok_iff (halves : List Half) (b : Bool) :
    reduce halves = .ok b ↔ Chained halves ∧ orOfAnds halves = b := by
  cases halves with
  | nil =>
    simp only [reduce, reduceCtorEq, false_iff]
    intro h
    cases h.1
  | cons half halves => exact reduceFrom_eq_ok_iff none half halves b

theorem reduce_of_chained {halves : List Half} (h : Chained halves) :
    reduce halves = .ok (orOfAnds halves) :=
  (reduce_eq_ok_iff halves _).mpr ⟨h, rfl⟩

theorem exists_cause_of_reduceFrom {debt : Option Bool} {current : Half} {halves : List Half}
    {x : Fault} (h : reduceFrom debt current halves = .error x) : ∃ cause, x = .badShape cause := by
  induction halves generalizing debt current with
  | nil =>
    rw [reduceFrom] at h
    split at h
    · exact ⟨_, (Except.error.inj h).symm⟩
    · cases h
  | cons next halves ih =>
    rw [reduceFrom] at h
    split at h
    · rename_i hcombine
      rw [Half.combine] at hcombine
      split at hcombine
      · cases h
        exact ⟨_, (Except.error.inj hcombine).symm⟩
      · split at hcombine <;> cases hcombine
    · exact ih h
    · exact ih h

/-- Where `reduce` does not answer it is the shape of the list that is at fault. -/
theorem exists_cause_of_reduce {halves : List Half} {x : Fault} (h : reduce halves = .error x) :
    ∃ cause, x = .badShape cause := by
  cases halves with
  | nil => exact ⟨_, (Except.error.inj h).symm⟩
  | cons half halves => exact exists_cause_of_reduceFrom h

/-! ## 4. Runs as the longest stretches joined by `and` -/

/-- A list of halves that is whole: there is a half, each but the last one has a junction behind it,
    and the last one has none. -/
structure Whole (halves : List Half) : Prop where
  nonempty : halves ≠ []
  joined : ∀ half ∈ halves.dropLast, half.junction ≠ none
  ended : ∀ half, halves.getLast? = some half → half.junction = none

/-- The longest stretches of halves that `and` joins. -/
def stretches (halves : List Half) : List (List Half) :=
  halves.splitBy fun half _ => half.junction = some .and

theorem whole_cons_iff {half next : Half} {halves : List Half} :
    Whole (half :: next :: halves) ↔ half.junction ≠ none ∧ Whole (next :: halves) := by
  constructor
  · intro h
    refine ⟨h.joined half List.mem_cons_self, List.cons_ne_nil _ _, fun other hm => ?_, h.ended⟩
    exact h.joined other (List.mem_cons_of_mem _ hm)
  · intro ⟨hj, h⟩
    exact ⟨List.cons_ne_nil _ _, List.forall_mem_cons.mpr ⟨hj, h.joined⟩, h.ended⟩

/-- **The lists that can be reduced are the whole ones.** -/
theorem chained_iff_whole {halves : List Half} : Chained halves ↔ Whole halves := by
  induction halves with
  | nil => exact ⟨nofun, fun h => absurd rfl h.nonempty⟩
  | cons half halves ih =>
    obtain ⟨v, j⟩ := half
    cases halves with
    | nil =>
      cases j with
      | none =>
        refine ⟨fun _ => ⟨List.cons_ne_nil _ _, nofun, fun half hl => ?_⟩, fun _ => .last v⟩
        have hhalf : ⟨v, none⟩ = half := Option.some.inj hl
        rw [← hhalf]
      | some j =>
        refine ⟨fun h => ?_, fun h => absurd (h.ended _ rfl) (Option.some_ne_none j)⟩
        cases chained_cons_some.mp h
    | cons next halves =>
      rw [whole_cons_iff]
      cases j with
      | none => exact ⟨fun h => absurd h not_chained_cons_none, fun h => absurd rfl h.1⟩
      | some j =>
        rw [chained_cons_some, ih]
        exact ⟨fun h => ⟨Option.some_ne_none j, h⟩, And.right⟩

/-- A half that `and` joins with the next one belongs to its stretch. -/
theorem stretches_and {v : Bool} {next : Half} {halves run : List Half} {more : List (List Half)}
    (h : stretches (next :: halves) = run :: more) :
    stretches (⟨v, some .and⟩ :: next :: halves) = (⟨v, some .and⟩ :: run) :: more := by
  obtain ⟨hflat, hnil, hruns, hends⟩ := List.splitBy_eq_iff.mp h
  obtain ⟨hrun, hmore⟩ := List.forall_mem_cons.mp hruns
  obtain ⟨first, tail, rfl⟩ := List.exists_cons_of_ne_nil fun he => hnil (he ▸ List.mem_cons_self)
  refine List.splitBy_eq_iff.mpr ⟨by rw [hflat]; rfl, ?_, ?_, ?_⟩
  · exact fun hm => hnil (List.mem_cons_of_mem _ ((List.mem_cons.mp hm).resolve_left nofun))
  · refine List.forall_mem_cons.mpr ⟨List.isChain_cons_cons.mpr ⟨?_, hrun⟩, hmore⟩
    exact decide_eq_true rfl
  · cases more with
    | nil => exact List.isChain_singleton _
    | cons run more =>
      obtain ⟨⟨hl, hf, hr⟩, hchain⟩ := List.isChain_cons_cons.mp hends
      exact List.isChain_cons_cons.mpr ⟨⟨List.cons_ne_nil _ _, hf, hr⟩, hchain⟩

theorem stretches_or (v : Bool) (halves : List Half) :
    stretches (⟨v, some .or⟩ :: halves) = [⟨v, some .or⟩] :: stretches halves := by
  cases halves with
  | nil => rfl
  | cons next halves =>
    refine List.splitBy_append_cons (l := [⟨v, some .or⟩]) halves fun half hm => ?_
    cases hm
    rfl

/-- The runs of a list that can be reduced are the values of its stretches. -/
theorem runs_eq_map_stretches {halves : List Half} (h : Chained halves) :
    runs halves = (stretches halves).map fun run => run.map (·.value) := by
  induction h with
  | last v => rfl
  | @cons v j halves h ih =>
    cases j with
    | or =>
      rw [stretches_or, List.map_cons, ← ih, runs, if_pos rfl]
      rfl
    | and =>
      obtain ⟨next, halves, rfl⟩ := List.exists_cons_of_ne_nil (chained_iff_whole.mp h).nonempty
      have hne : stretches (next :: halves) ≠ [] := List.splitBy_ne_nil.mpr (List.cons_ne_nil _ _)
      obtain ⟨run, more, hruns⟩ := List.exists_cons_of_ne_nil hne
      rw [stretches_and hruns, runs, ih, hruns]
      rfl

theorem orOfAnds_eq_any_stretches {halves : List Half} (h : Chained halves) :
    orOfAnds halves = (stretches halves).any fun run => run.all (·.value) := by
  rw [orOfAnds, runs_eq_map_stretches h, List.any_map]
  congr 1
  funext run
  exact List.all_map

/-! ## 5. The faults of other lists -/

/-- The pass goes on behind a junction, with some value for the next half. -/
theorem exists_reduceFrom_cons (debt : Option Bool) (v : Bool) (j : Junction) (next : Half)
    (halves : List Half) : ∃ debt' w, reduceFrom debt ⟨v, some j⟩ (next :: halves)
      = reduceFrom debt' ⟨w, next.junction⟩ halves := by
  rw [reduceFrom, Half.combine]
  by_cases hwait : j = .or ∧ next.junction = some .and
  · simp only [if_pos hwait]
    exact ⟨_, next.value, rfl⟩
  · simp only [if_neg hwait]
    exact ⟨debt, _, rfl⟩

/-- A half before the last one without a junction stops the pass. -/
theorem reduceFrom_of_gap {debt : Option Bool} {current : Half} {halves : List Half}
    (h : none ∈ ((current :: halves).map (·.junction)).dropLast) :
    ∃ v, reduceFrom debt current halves = .error (.badShape (.notFollowed v)) := by
  induction halves generalizing debt current with
  | nil => cases h
  | cons next halves ih =>
    obtain ⟨v, j⟩ := current
    cases j with
    | none => exact ⟨v, rfl⟩
    | some j =>
      obtain ⟨debt', w, hstep⟩ := exists_reduceFrom_cons debt v j next halves
      rw [hstep]
      exact ih ((List.mem_cons.mp h).resolve_left nofun)

/-- A junction behind the last half is found out at the end, if there is no gap before it. -/
theorem reduceFrom_of_dangling {debt : Option Bool} {current : Half} {halves : List Half}
    (hjoined : none ∉ ((current :: halves).map (·.junction)).dropLast) {j : Junction}
    (hlast : ((current :: halves).map (·.junction)).getLast? = some (some j)) :
    reduceFrom debt current halves = .error (.badShape (.endsWith j)) := by
  induction halves generalizing debt current with
  | nil =>
    have hj : current.junction = some j := Option.some.inj hlast
    rw [reduceFrom, hj]
  | cons next halves ih =>
    obtain ⟨v, k⟩ := current
    cases k with
    | none => exact absurd List.mem_cons_self hjoined
    | some k =>
      obtain ⟨debt', w, hstep⟩ := exists_reduceFrom_cons debt v k next halves
      rw [hstep]
      exact ih (fun hm => hjoined (List.mem_cons_of_mem _ hm)) hlast

/-- A list is whole, or it is at fault for its shape in one of three ways. -/
theorem reduce_cases (halves : List Half) : Whole halves ∨
    (halves = [] ∧ reduce halves = .error (.badShape .nothing)) ∨
    ((∃ half ∈ halves.dropLast, half.junction = none) ∧
      ∃ v, reduce halves = .error (.badShape (.notFollowed v))) ∨
    ∃ half j, halves.getLast? = some half ∧ half.junction = some j ∧
      reduce halves = .error (.badShape (.endsWith j)) := by
  cases halves with
  | nil => exact .inr (.inl ⟨rfl, rfl⟩)
  | cons half halves =>
    by_cases hgap : none ∈ ((half :: halves).map (·.junction)).dropLast
    · obtain ⟨v, hr⟩ : ∃ v, reduceFrom none half halves = .error (.badShape (.notFollowed v)) :=
        reduceFrom_of_gap hgap
      rw [← List.map_dropLast] at hgap
      exact .inr (.inr (.inl ⟨List.mem_map.mp hgap, v, hr⟩))
    · have hlast := List.getLast?_eq_some_getLast (List.cons_ne_nil half halves)
      cases hj : ((half :: halves).getLast (List.cons_ne_nil _ _)).junction with
      | none =>
        refine .inl ⟨List.cons_ne_nil _ _, fun other hm hnone => hgap ?_, fun other hl => ?_⟩
        · rw [← List.map_dropLast]
          exact List.mem_map.mpr ⟨other, hm, hnone⟩
        · rw [← Option.some.inj (hlast.symm.trans hl), hj]
      | some j =>
        refine .inr (.inr (.inr ⟨_, j, hlast, hj, reduceFrom_of_dangling hgap ?_⟩))
        rw [List.getLast?_map, hlast, Option.map_some, hj]

/-- **What `reduce` answers, list by list.** A whole list has a value: one of its stretches holds,
    a stretch being halves that `and` joins, which all hold. Every other list is at fault for its
    shape: it is empty, a half before the last one has no junction, or the last one has one. -/
theorem reduce_decides (halves : List Half) :
    (∀ v, reduce halves = .ok v ↔
        Whole halves ∧ ((stretches halves).any fun run => run.all (·.value)) = v) ∧
      (¬ Whole halves ↔ ∃ cause, reduce halves = .error (.badShape cause)) ∧
      (Whole halves ∨
        (halves = [] ∧ reduce halves = .error (.badShape .nothing)) ∨
        ((∃ half ∈ halves.dropLast, half.junction = none) ∧
          ∃ v, reduce halves = .error (.badShape (.notFollowed v))) ∨
        ∃ half j, halves.getLast? = some half ∧ half.junction = some j ∧
          reduce halves = .error (.badShape (.endsWith j))) := by
  have hok : ∀ v, reduce halves = .ok v ↔
      Whole halves ∧ ((stretches halves).any fun run => run.all (·.value)) = v := by
    intro v
    rw [reduce_eq_ok_iff, ← chained_iff_whole]
    exact and_congr_right fun h => by rw [orOfAnds_eq_any_stretches h]
  refine ⟨hok, ⟨fun h => ?_, fun h hwhole => ?_⟩, reduce_cases halves⟩
  · cases hr : reduce halves with
    | ok v => exact absurd ((hok v).mp hr).1 h
    | error x =>
      obtain ⟨cause, rfl⟩ := exists_cause_of_reduce hr
      exact ⟨cause, rfl⟩
  · obtain ⟨cause, hr⟩ := h
    rw [(hok _).mpr ⟨hwhole, rfl⟩] at hr
    cases hr

/-- The `and` binds tighter on both sides of the `or`. -/
example : reduce [⟨true, some .and⟩, ⟨false, some .or⟩, ⟨true, some .and⟩, ⟨true, none⟩]
    = .ok true := rfl

end Verdict
