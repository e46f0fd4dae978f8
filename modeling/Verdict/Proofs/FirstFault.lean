import Verdict.Evaluation
import Verdict.Proofs.FolderRuns
import Verdict.Proofs.Pushing

/-!
# The fault that ends an evaluation

The folder and the reducer can both fault, and the tokens pass from one to the other as they are
found. This file says which fault an evaluation ends in. The reducer faults of its own accord for
one reason alone: a bracket is closed that was not opened. All else that it guards against (a
junction with nothing before it, two values side by side, a list that cannot be reduced) the folder
never hands it, for the folder asks what may follow its last token.

* `Fits` -- the invariant of both machines: the list of each open bracket waits for a value, the
  innermost one for a junction where the last token ended a value.
* `Fits.push` -- one token of the folder is taken, unless it closes a bracket that was not opened.
* `pushAll_of_run` -- a run of the folder is taken, unless it closes such a bracket.
* `evaluate_first_fault` -- **the fault that counts**, or a truth value.
-/

namespace Verdict

namespace Reducer

/-! ## 1. Lists that wait -/

/-- A junction behind each half, so that a value has to come next. -/
def AllJoined (halves : List Half) : Prop := ∀ half ∈ halves, half.junction ≠ none

theorem allJoined_nil : AllJoined [] := nofun

theorem AllJoined.joinable {halves : List Half} (h : AllJoined halves) : Joinable halves :=
  fun _ hv => h _ (List.mem_of_getLast? hv) rfl

theorem AllJoined.append_some {halves : List Half} (h : AllJoined halves) (v : Bool)
    (j : Junction) : AllJoined (halves ++ [⟨v, some j⟩]) := by
  intro half hm
  rcases List.mem_append.mp hm with hm | hm
  · exact h half hm
  · rw [List.mem_singleton.mp hm]
    exact Option.some_ne_none j

theorem AllJoined.chained {halves : List Half} (h : AllJoined halves) (v : Bool) :
    Chained (halves ++ [.last v]) := by
  induction halves with
  | nil => exact .last v
  | cons half halves ih =>
    obtain ⟨w, j⟩ := half
    cases j with
    | none => exact absurd rfl (h _ List.mem_cons_self)
    | some j => exact .cons w j (ih fun half hm => h half (List.mem_cons_of_mem _ hm))

/-- A list that can be reduced is one that waited, with a value at its end. -/
theorem exists_allJoined_of_chained {halves : List Half} (h : Chained halves) :
    ∃ front v, halves = front ++ [.last v] ∧ AllJoined front := by
  induction h with
  | last v => exact ⟨[], v, rfl, allJoined_nil⟩
  | cons w j _ ih =>
    obtain ⟨front, v, rfl, hj⟩ := ih
    refine ⟨⟨w, some j⟩ :: front, v, rfl, List.forall_mem_cons.mpr ⟨?_, hj⟩⟩
    exact Option.some_ne_none j

/-! ## 2. One token of the folder -/

/-- **The invariant**: the lists of the brackets around wait for a value; the innermost list can be
    reduced behind a token that ends a value, and waits for one behind all others. -/
structure Fits (last : Option Token) (r : Reducer) : Prop where
  outer : ∀ list ∈ r.outer, AllJoined list
  ended : Folder.Ended last → Chained r.current
  waiting : ¬ Folder.Ended last → AllJoined r.current

theorem fits_start : Fits none start := ⟨nofun, False.elim, fun _ => allJoined_nil⟩

/-- A token that ends a value leaves one behind the innermost list. -/
theorem Fits.of_value {token : Token} {r : Reducer} {front : List Half} {v : Bool}
    (hout : ∀ list ∈ r.outer, AllJoined list) (ht : Folder.Ended (some token))
    (hc : r.current = front ++ [.last v]) (hf : AllJoined front) : Fits (some token) r :=
  ⟨hout, fun _ => hc ▸ hf.chained v, fun hn => absurd ht hn⟩

/-- **One token of the folder is taken**, and the invariant is kept; but a closing bracket is not
    taken where none is open. -/
theorem Fits.push {last : Option Token} {r : Reducer} {token : Token} (h : Fits last r)
    (ht : Folder.NeedsValue token ↔ Folder.Ended last) :
    (∃ s, Step r token s ∧ Fits (some token) s) ∨ (token = .closing ∧ r.outer = []) := by
  cases token with
  | truth v =>
    have hw := h.waiting fun he => ht.mpr he
    exact .inl ⟨_, .truth v hw.joinable, .of_value h.outer trivial rfl hw⟩
  | junction j =>
    obtain ⟨front, v, hc, hf⟩ := exists_allJoined_of_chained (h.ended (ht.mp trivial))
    exact .inl ⟨_, .junction j hc, ⟨h.outer, False.elim, fun _ => hf.append_some v j⟩⟩
  | negation =>
    have hw := h.waiting fun he => ht.mpr he
    exact .inl ⟨_, .negation r, ⟨h.outer, False.elim, fun _ => hw⟩⟩
  | opening =>
    have hw := h.waiting fun he => ht.mpr he
    refine .inl ⟨_, .opening r, ⟨?_, False.elim, fun _ => allJoined_nil⟩⟩
    exact List.forall_mem_cons.mpr ⟨hw, h.outer⟩
  | closing =>
    cases hout : r.outer with
    | nil => exact .inr ⟨rfl, rfl⟩
    | cons list outer =>
      have hlists := h.outer
      rw [hout] at hlists
      obtain ⟨hlist, houter⟩ := List.forall_mem_cons.mp hlists
      have hv := reduce_of_chained (h.ended (ht.mp trivial))
      exact .inl ⟨_, .closing hout hv hlist.joinable, .of_value houter trivial rfl hlist⟩

/-! ## 3. Brackets closed and opened -/

/-- Somewhere on the way more brackets are closed than were open before and opened since. -/
def OverclosedFrom (depth : Nat) (tokens : List Token) : Prop :=
  ∃ front, front <+: tokens ∧ depth + front.count .opening < front.count .closing

/-- A token taken changes the number of open brackets by itself. -/
theorem depth_of_step {r s : Reducer} {token : Token} (h : Step r token s) :
    s.depth + [token].count .closing = r.depth + [token].count .opening := by
  cases h with
  | closing hout =>
    simp only [depth, hout]
    rfl
  | _ => rfl

theorem count_cons_eq (t token : Token) (tokens : List Token) :
    (token :: tokens).count t = [token].count t + tokens.count t := by
  rw [← List.singleton_append, List.count_append]

theorem overclosedFrom_cons {depth depth' : Nat} {token : Token} {tokens : List Token}
    (h : depth' + [token].count .closing = depth + [token].count .opening) :
    OverclosedFrom depth (token :: tokens) ↔ OverclosedFrom depth' tokens := by
  constructor
  · intro ⟨front, hp, hlt⟩
    cases front with
    | nil => exact absurd hlt (Nat.not_lt_zero _)
    | cons t front =>
      obtain ⟨rfl, hfront⟩ := List.cons_prefix_cons.mp hp
      rw [count_cons_eq .opening, count_cons_eq .closing] at hlt
      exact ⟨front, hfront, by omega⟩
  · intro ⟨front, hp, hlt⟩
    refine ⟨token :: front, List.cons_prefix_cons.mpr ⟨rfl, hp⟩, ?_⟩
    rw [count_cons_eq .opening, count_cons_eq .closing]
    omega

theorem push_closing_of_outer_nil {r : Reducer} (h : r.outer = []) :
    (r.push .closing).1 = some .unbalancedBrackets := by
  simp only [push, closeBracket, h]

theorem pushAll_cons_of_step {r s : Reducer} {token : Token} (h : Step r token s)
    (tokens : List Token) : r.pushAll (token :: tokens) = s.pushAll tokens := by
  simp only [pushAll, (push_eq_none_iff _ _ _).mpr h]

theorem pushAll_cons_of_fault {r : Reducer} {token : Token} {x : Fault}
    (h : (r.push token).1 = some x) (tokens : List Token) :
    r.pushAll (token :: tokens) = .error x := by
  cases hp : r.push token with
  | mk fault s =>
    rw [hp] at h
    cases h
    simp only [pushAll, hp]

/-- **A run of the folder is taken**, unless it closes a bracket that was not opened. The induction
    is on the run; `Fits` is carried from one token to the next. -/
theorem pushAll_of_run {lookup : Lookup} {last last' : Option Token} {c d : Condition}
    {ts : List Token} (hr : Folder.Run lookup last c ts last' d) {r : Reducer} (h : Fits last r) :
    (OverclosedFrom r.depth ts ∧ r.pushAll ts = .error .unbalancedBrackets) ∨
      (¬ OverclosedFrom r.depth ts ∧ ∃ s, r.pushAll ts = .ok s ∧ Fits last' s ∧
        s.depth + ts.count .closing = r.depth + ts.count .opening) := by
  induction hr generalizing r with
  | nil last c =>
    refine .inr ⟨?_, r, rfl, h, rfl⟩
    intro ⟨front, hp, hlt⟩
    rw [List.prefix_nil.mp hp] at hlt
    exact absurd hlt (Nat.not_lt_zero _)
  | @cons _ _ _ _ _ token ts hs _ ih =>
    rcases h.push hs.needsValue_iff with ⟨s, hstep, hfits⟩ | ⟨rfl, hout⟩
    · have hdepth := depth_of_step hstep
      rw [overclosedFrom_cons hdepth, pushAll_cons_of_step hstep]
      rcases ih hfits with hover | ⟨hover, t, ht, hfits', hcount⟩
      · exact .inl hover
      · refine .inr ⟨hover, t, ht, hfits', ?_⟩
        rw [count_cons_eq .opening, count_cons_eq .closing]
        omega
    · refine .inl ⟨⟨[.closing], List.cons_prefix_cons.mpr ⟨rfl, List.nil_prefix⟩, ?_⟩, ?_⟩
      · rw [depth, hout]
        decide
      · exact pushAll_cons_of_fault (push_closing_of_outer_nil hout) ts

/-- No token of a run faults in the reducer, but for a closing bracket where none is open. -/
theorem push_of_run {lookup : Lookup} {last last' : Option Token} {c d : Condition}
    {front ts : List Token} {token : Token}
    (hr : Folder.Run lookup last c (front ++ token :: ts) last' d) {r s : Reducer}
    (h : Fits last r) (hs : r.pushAll front = .ok s) {x : Fault}
    (hx : (s.push token).1 = some x) : x = .unbalancedBrackets := by
  obtain ⟨m, e, hfront, hmore⟩ := hr.split
  rcases pushAll_of_run hfront h with ⟨-, herror⟩ | ⟨-, s', hs', hfits, -⟩
  · rw [hs] at herror
    cases herror
  · rw [hs] at hs'
    cases hs'
    cases hmore with
    | cons hstep _ =>
      rcases hfits.push hstep.needsValue_iff with ⟨t, ht, -⟩ | ⟨rfl, hout⟩
      · rw [(push_eq_none_iff _ _ _).mpr ht] at hx
        cases hx
      · rw [push_closing_of_outer_nil hout] at hx
        exact (Option.some.inj hx).symm

/-- What is left at the end has a value, once all brackets are closed and a value was ended last. -/
theorem Fits.finish {last : Option Token} {r : Reducer} (h : Fits last r)
    (hl : Folder.Ended last) (hd : r.depth = 0) : ∃ v, r.finish = .ok v := by
  have hout : r.outer = [] := List.length_eq_zero_iff.mp hd
  refine ⟨orOfAnds r.current, ?_⟩
  rw [Reducer.finish, hout]
  exact reduce_of_chained (h.ended hl)

theorem finish_of_depth_pos {r : Reducer} (h : 0 < r.depth) :
    r.finish = .error (.badShape (.leftOpen r.depth)) := by
  have hout : r.outer.isEmpty = false :=
    List.isEmpty_eq_false_iff.mpr (List.length_pos_iff.mp h)
  rw [Reducer.finish, hout]
  rfl

theorem exists_cause_of_finish {r : Reducer} {x : Fault} (h : r.finish = .error x) :
    ∃ cause, x = .badShape cause := by
  rw [Reducer.finish] at h
  split at h
  · exact exists_cause_of_reduce h
  · exact ⟨_, (Except.error.inj h).symm⟩

end Reducer

/-! ## 4. Whole conditions -/

namespace Condition

/-- More brackets closed than opened, somewhere on the way. -/
def Overclosed (tokens : List Token) : Prop := Reducer.OverclosedFrom 0 tokens

/-- **The fault that ends an evaluation.** A bracket closed too many comes first, even before a
    fault of the folder behind it; then the folder's fault; then brackets left open; then that there
    is nothing at all. Without any of these there is a truth value. And no push of a token that the
    folder found faults for another reason than a bracket closed too many. -/
theorem evaluate_first_fault (lookup : Lookup) (c : Condition) :
    let ts := (Condition.tokens lookup c).1
    let fault := (Condition.tokens lookup c).2
    (Overclosed ts → c.evaluate lookup = .error .unbalancedBrackets) ∧
      (¬ Overclosed ts →
        (∀ x, fault = some x → c.evaluate lookup = .error x) ∧
        (fault = none →
          (ts.count .closing < ts.count .opening → c.evaluate lookup =
            .error (.badShape (.leftOpen (ts.count .opening - ts.count .closing)))) ∧
          (ts.count .opening ≤ ts.count .closing →
            (c = [] → c.evaluate lookup = .error (.badShape .nothing)) ∧
            (c ≠ [] → ∃ v, c.evaluate lookup = .ok v)))) ∧
      ∀ front token, front ++ [token] <+: ts → ∀ r, Reducer.start.pushAll front = .ok r →
        ∀ x, (r.push token).1 = some x → x = .unbalancedBrackets := by
  intro ts fault
  obtain ⟨g, hreach, hend⟩ := Folder.exists_reaches
    (Prod.ext rfl rfl : (Folder.start c).tokens lookup = (ts, fault))
  have hrun : Folder.Run lookup none c ts g.last g.rest := hreach.run
  have heval := evaluate_of_tokens (Prod.ext rfl rfl : Condition.tokens lookup c = (ts, fault))
  have htaken := Reducer.pushAll_of_run hrun Reducer.fits_start
  refine ⟨fun hover => ?_, fun hover => ?_, ?_⟩
  · rcases htaken with ⟨-, herror⟩ | ⟨hnot, -⟩
    · rw [heval, herror]
      rfl
    · exact absurd hover hnot
  · obtain ⟨r, hr, hfits, hcount⟩ : ∃ r, _ := (htaken.resolve_left fun h => hover h.1).2
    have hdepth : r.depth + ts.count .closing = ts.count .opening := by
      rw [hcount]
      exact Nat.zero_add _
    rw [heval, hr]
    refine ⟨fun x hx => by rw [hx]; rfl, fun hnone => ?_⟩
    rw [hnone] at hend ⊢
    show (_ → r.finish = _) ∧ (_ → (_ → r.finish = _) ∧ (_ → ∃ v, r.finish = .ok v))
    refine ⟨fun hlt => ?_, fun hle => ⟨fun hc => ?_, fun hc => ?_⟩⟩
    · rw [Reducer.finish_of_depth_pos (by omega), ← hdepth, Nat.add_sub_cancel]
    · -- no element: no token, and the reducer is where it began
      subst hc
      cases hr
      rfl
    · obtain ⟨hrest, hl⟩ := Folder.rest_eq_nil_of_tokens hend
      rw [hrest] at hrun
      exact hfits.finish (hrun.ended hc hl) (by omega)
  · intro front token hp r hr x hx
    obtain ⟨rest, hts⟩ := hp
    rw [← hts, List.append_assoc] at hrun
    exact Reducer.push_of_run hrun Reducer.fits_start hr hx

/-- The bracket that is closed too many counts, not the variable behind it that cannot follow. -/
example : Condition.evaluate (Lookup.empty.bind "on" "true")
    [.operand (.var "on"), .bracket .closing, .operand (.var "off")]
      = .error .unbalancedBrackets := rfl

end Condition

end Verdict
