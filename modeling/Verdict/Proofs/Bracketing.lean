import Verdict.Proofs.Pushing

/-!
# Tokens that make a sentence

The reducer keeps a list of halves for each open bracket and builds no tree. This file gives the
grammar that it answers to,

    E ::= I (junction I)*        I ::= truth | "(" E ")" | "!" "(" E ")"

and shows that a row of tokens has a value exactly when it derives from `E`, with that value. A
negation counts only right before an opening bracket: one that stands anywhere else is IDLE (a negated
variable arrives inverted already) and can be left out.

* `run_eq_run_kept` -- idle negations change no answer, fault or value.
* `TokenChain.pushAll` -- what derives is taken, and leaves its halves behind.
* `Stacked` -- the invariant of every run: what each open bracket has taken so far derives, item by
  item, and the depths behind a negation are those of the brackets behind one.
* `evaluateTokens_iff_sentence` -- values are those of derivations; without one there is a fault.
-/

namespace Verdict

/-! ## 1. The grammar -/

/-- The tokens without the negations that no opening bracket follows at once. -/
def withoutIdle : List Token → List Token
  | [] => []
  | .negation :: tokens =>
    if tokens.head? = some .opening then .negation :: withoutIdle tokens else withoutIdle tokens
  | token :: tokens => token :: withoutIdle tokens

mutual

/-- `I ::= truth | "(" E ")" | "!" "(" E ")"`, with the value of the item. -/
inductive TokenItem : List Token → Bool → Prop
  | truth (v : Bool) : TokenItem [.truth v] v
  | bracket {tokens : List Token} {halves : List Half} (h : TokenChain tokens halves) :
      TokenItem (.opening :: (tokens ++ [.closing])) (orOfAnds halves)
  | negated {tokens : List Token} {halves : List Half} (h : TokenChain tokens halves) :
      TokenItem (.negation :: .opening :: (tokens ++ [.closing])) (!orOfAnds halves)

/-- `E ::= I (junction I)*`, with the values of the items and the junctions behind them. -/
inductive TokenChain : List Token → List Half → Prop
  | last {tokens : List Token} {v : Bool} (h : TokenItem tokens v) : TokenChain tokens [.last v]
  | join {tokens more : List Token} {v : Bool} {halves : List Half} (h : TokenItem tokens v)
      (j : Junction) (hs : TokenChain more halves) :
      TokenChain (tokens ++ .junction j :: more) (⟨v, some j⟩ :: halves)

end

/-- The tokens derive from `E`, and have a value: `and` binds tighter than `or`. -/
def TokenSentence (tokens : List Token) (v : Bool) : Prop :=
  ∃ halves, TokenChain tokens halves ∧ orOfAnds halves = v

theorem TokenChain.chained {tokens : List Token} {halves : List Half}
    (h : TokenChain tokens halves) : Chained halves := by
  cases h with
  | last h => exact .last _
  | join h j hs => exact .cons _ j hs.chained

/-! ## 2. Idle negations -/

namespace Reducer

/-- All tokens taken and the value asked for. -/
def run (r : Reducer) (tokens : List Token) : Except Fault Bool := (r.pushAll tokens).bind finish

theorem evaluateTokens_eq_run (tokens : List Token) : evaluateTokens tokens = start.run tokens := rfl

theorem run_cons (r : Reducer) (token : Token) (tokens : List Token) :
    r.run (token :: tokens) =
      match r.push token with
      | (some x, _) => .error x
      | (none, s) => s.run tokens := by
  simp only [run, pushAll]
  cases r.push token with
  | mk fault s => cases fault <;> rfl

/-- What counts of a token, given whether a negation is right before it. -/
def kept (pending : Bool) : Token → List Token
  | .negation => []
  | .opening => if pending then [.negation, .opening] else [.opening]
  | token => [token]

/-- What counts of a row of tokens, given whether a negation is right before it. -/
def keptAll (pending : Bool) : List Token → List Token
  | [] => []
  | token :: tokens => kept pending token ++ keptAll (token = .negation) tokens

theorem keptAll_eq (pending : Bool) (tokens : List Token) :
    keptAll pending tokens
      = (if pending = true ∧ tokens.head? = some .opening then [.negation] else [])
        ++ withoutIdle tokens := by
  induction tokens generalizing pending with
  | nil => simp only [keptAll, withoutIdle, List.head?_nil, reduceCtorEq, and_false, ↓reduceIte,
      List.append_nil]
  | cons token tokens ih =>
    cases token with
    | negation =>
      simp only [keptAll, kept, ih, withoutIdle, List.head?_cons, Option.some.injEq, reduceCtorEq,
        and_false, ↓reduceIte, List.nil_append, decide_true, true_and]
      split <;> rfl
    | opening =>
      simp only [keptAll, kept, ih, withoutIdle, List.head?_cons, and_true, reduceCtorEq,
        decide_false, Bool.false_eq_true, false_and, ↓reduceIte, List.nil_append]
      cases pending <;> rfl
    | _ =>
      simp only [keptAll, kept, ih, withoutIdle, List.head?_cons, Option.some.injEq, reduceCtorEq,
        and_false, ↓reduceIte, List.nil_append, decide_false, Bool.false_eq_true, false_and,
        List.cons_append]

theorem keptAll_false (tokens : List Token) : keptAll false tokens = withoutIdle tokens := by
  simp only [keptAll_eq, Bool.false_eq_true, false_and, ↓reduceIte, List.nil_append]

/-- Only an opening bracket asks whether a negation is right before it. -/
theorem push_pending (r : Reducer) {token : Token} (h : token ≠ .opening) :
    ({ r with pending := false } : Reducer).push token = r.push token := by
  cases token with
  | opening => exact absurd rfl h
  | _ => rfl

theorem pending_of_step {r s : Reducer} {token : Token} (h : Step r token s) :
    s.pending = decide (token = .negation) := by
  cases h <;> rfl

/-- **Idle negations are harmless**: a run over all tokens and one over those that count end alike,
    also in a fault. -/
theorem run_eq_run_kept (r : Reducer) (tokens : List Token) :
    r.run tokens = ({ r with pending := false } : Reducer).run (keptAll r.pending tokens) := by
  induction tokens generalizing r with
  | nil => rfl
  | cons token tokens ih =>
    -- after a push that is no negation no negation is pending on either side
    have onward : ∀ s : Reducer, s.pending = false →
        s.run tokens = s.run (keptAll false tokens) := by
      intro s hs
      have h := ih s
      rw [hs] at h
      rw [h]
      congr 1
      cases s
      cases hs
      rfl
    have push_same : token ≠ .opening → token ≠ .negation →
        r.run (token :: tokens)
          = ({ r with pending := false } : Reducer).run (token :: keptAll false tokens) := by
      intro ho hn
      rw [run_cons, run_cons, push_pending r ho]
      cases hp : r.push token with
      | mk fault s =>
        cases fault with
        | some x => rfl
        | none =>
          have hs := pending_of_step ((push_eq_none_iff _ _ _).mp hp)
          exact onward s (by rw [hs]; exact decide_eq_false hn)
    cases token with
    | truth v => exact push_same Token.noConfusion Token.noConfusion
    | junction j => exact push_same Token.noConfusion Token.noConfusion
    | closing => exact push_same Token.noConfusion Token.noConfusion
    | negation => exact ih { r with pending := true }
    | opening =>
      rw [run_cons]
      refine (onward _ rfl).trans ?_
      cases hp : r.pending <;> simp only [keptAll, kept, ↓reduceIte, Bool.false_eq_true,
        List.cons_append, List.nil_append, run_cons, push, openBracket, reduceCtorEq, decide_false]

/-! ## 3. What derives is taken -/

/-- Every depth that is noted as negated is that of an open bracket. -/
def NegatedOpen (r : Reducer) : Prop := ∀ d ∈ r.negated, d ≤ r.depth

/-- The reducer inside a bracket opened at `r`, once it has taken some halves. -/
def inside (r : Reducer) (negate : Bool) (halves : List Half) : Reducer :=
  ⟨halves, r.current :: r.outer, if negate then (r.depth + 1) :: r.negated else r.negated, false⟩

theorem NegatedOpen.inside {r : Reducer} (h : r.NegatedOpen) (negate : Bool) (halves : List Half) :
    (r.inside negate halves).NegatedOpen := by
  intro d hd
  have hdepth : (r.inside negate halves).depth = r.depth + 1 := rfl
  rw [hdepth]
  cases negate with
  | false => exact Nat.le_succ_of_le (h d hd)
  | true =>
    rcases List.mem_cons.mp hd with rfl | hd
    · exact Nat.le_refl _
    · exact Nat.le_succ_of_le (h d hd)

/-- The innermost bracket is known for one behind a negation exactly when it is: its depth is greater
    than all depths noted before. -/
theorem negates_inside {r : Reducer} (h : r.NegatedOpen) (negate : Bool) (halves : List Half) :
    (r.inside negate halves).Negates ↔ negate = true := by
  cases negate with
  | true => exact ⟨fun _ => rfl, fun _ => rfl⟩
  | false =>
    refine ⟨fun hn => ?_, fun hn => Bool.noConfusion hn⟩
    have hd : (r.inside false halves).depth ≤ r.depth := h _ (List.mem_of_mem_head? hn)
    exact absurd hd (Nat.not_succ_le_self r.depth)

/-- A closing bracket puts what is inside, inverted behind a negation, at the end outside. -/
theorem step_closing_inside {r : Reducer} (h : r.NegatedOpen) (negate : Bool) {halves : List Half}
    (hc : Chained halves) (hj : Joinable r.current) :
    Step (r.inside negate halves) .closing
      ⟨r.current ++ [.last (if negate then !orOfAnds halves else orOfAnds halves)], r.outer,
        r.negated, false⟩ := by
  have hs := Step.closing (r := r.inside negate halves) rfl (reduce_of_chained hc) hj
  simp only [negates_inside h] at hs
  cases negate with
  | true => exact hs
  | false => exact hs

/-- The tokens are taken wherever a value may come next, and their halves are put at the end. -/
def Takes (tokens : List Token) (halves : List Half) : Prop :=
  ∀ r : Reducer, r.pending = false → r.NegatedOpen → Joinable r.current →
    r.pushAll tokens = .ok ⟨r.current ++ halves, r.outer, r.negated, false⟩

theorem takes_truth (v : Bool) : Takes [.truth v] [.last v] := by
  intro r _ _ hj
  exact (pushAll_cons_eq_ok_iff _ _ _ _).mpr ⟨_, .truth v hj, rfl⟩

theorem Takes.bracket {tokens : List Token} {halves : List Half} (h : Takes tokens halves)
    (hc : Chained halves) :
    Takes (.opening :: (tokens ++ [.closing])) [.last (orOfAnds halves)] := by
  intro r hp hn hj
  have hs := Step.opening r
  rw [hp] at hs
  refine (pushAll_cons_eq_ok_iff _ _ _ _).mpr ⟨r.inside false [], hs, ?_⟩
  rw [pushAll_append (h _ rfl (hn.inside false []) joinable_nil)]
  exact (pushAll_cons_eq_ok_iff _ _ _ _).mpr ⟨_, step_closing_inside hn false hc hj, rfl⟩

theorem Takes.negated {tokens : List Token} {halves : List Half} (h : Takes tokens halves)
    (hc : Chained halves) :
    Takes (.negation :: .opening :: (tokens ++ [.closing])) [.last (!orOfAnds halves)] := by
  intro r hp hn hj
  refine (pushAll_cons_eq_ok_iff _ _ _ _).mpr ⟨_, .negation r, ?_⟩
  refine (pushAll_cons_eq_ok_iff _ _ _ _).mpr ⟨r.inside true [], .opening _, ?_⟩
  rw [pushAll_append (h _ rfl (hn.inside true []) joinable_nil)]
  exact (pushAll_cons_eq_ok_iff _ _ _ _).mpr ⟨_, step_closing_inside hn true hc hj, rfl⟩

theorem Takes.join {tokens more : List Token} {v : Bool} {halves : List Half}
    (h : Takes tokens [.last v]) (j : Junction) (hs : Takes more halves) :
    Takes (tokens ++ .junction j :: more) (⟨v, some j⟩ :: halves) := by
  intro r hp hn hj
  rw [pushAll_append (h r hp hn hj)]
  refine (pushAll_cons_eq_ok_iff _ _ _ _).mpr ⟨_, .junction j rfl, ?_⟩
  refine (hs ⟨_, _, _, false⟩ rfl hn (joinable_append_some _ _ j)).trans ?_
  rw [List.append_assoc]
  rfl

/-- **What derives is taken.** The induction is on the derivation, over items and chains at once. -/
theorem takes_of_tokenChain {tokens : List Token} {halves : List Half}
    (h : TokenChain tokens halves) : Takes tokens halves := by
  refine @TokenChain.rec (fun tokens v _ => Takes tokens [.last v])
    (fun tokens halves _ => Takes tokens halves) ?truth ?bracket ?negated ?last ?join _ _ h
  case truth => exact takes_truth
  case bracket => exact fun hc ih => ih.bracket hc.chained
  case negated => exact fun hc ih => ih.negated hc.chained
  case last => exact fun _ ih => ih
  case join => exact fun _ j _ ih ihs => ih.join j ihs

/-- What derives has the value that it derives with. -/
theorem run_of_tokenSentence {tokens : List Token} {v : Bool} (h : TokenSentence tokens v) :
    start.run tokens = .ok v := by
  obtain ⟨halves, hc, rfl⟩ := h
  have hn : start.NegatedOpen := fun d hd => absurd hd List.not_mem_nil
  rw [Reducer.run, takes_of_tokenChain hc start rfl hn joinable_nil]
  exact reduce_of_chained hc.chained

/-! ## 4. What is taken derives -/

/-- Items, each with a junction behind it. -/
inductive Joined : List Token → List Half → Prop
  | nil : Joined [] []
  | snoc {tokens item : List Token} {halves : List Half} {v : Bool} (h : Joined tokens halves)
      (hi : TokenItem item v) (j : Junction) :
      Joined (tokens ++ (item ++ [.junction j])) (halves ++ [⟨v, some j⟩])

/-- What the innermost open bracket may have taken: items with junctions, and perhaps an item that
    waits for one. -/
inductive Begun : List Token → List Half → Prop
  | joined {tokens : List Token} {halves : List Half} (h : Joined tokens halves) :
      Begun tokens halves
  | item {tokens item : List Token} {halves : List Half} {v : Bool} (h : Joined tokens halves)
      (hi : TokenItem item v) : Begun (tokens ++ item) (halves ++ [.last v])

theorem Joined.append_chain {tokens more : List Token} {halves ends : List Half}
    (h : Joined tokens halves) (hc : TokenChain more ends) :
    TokenChain (tokens ++ more) (halves ++ ends) := by
  induction h generalizing more ends with
  | nil => exact hc
  | snoc h hi j ih =>
    have hj := ih (.join hi j hc)
    simpa only [List.append_assoc, List.cons_append, List.nil_append] using hj

theorem Joined.not_chained {tokens : List Token} {halves : List Half} (h : Joined tokens halves) :
    ¬ Chained halves := by
  have hend : ∀ (l : List Half) (v : Bool) (j : Junction), ¬ Chained (l ++ [⟨v, some j⟩]) := by
    intro l v j hc
    generalize he : l ++ [⟨v, some j⟩] = m at hc
    induction hc generalizing l with
    | last w =>
      have hl := congrArg List.getLast? he
      rw [List.getLast?_concat] at hl
      cases hl
    | cons w k hc ih =>
      cases l with
      | nil =>
        obtain ⟨-, rfl⟩ := List.cons.inj he
        cases hc
      | cons first l => exact ih l (List.cons.inj he).2
  cases h with
  | nil =>
    intro hc
    cases hc
  | snoc => exact hend _ _ _

theorem Begun.chain {tokens : List Token} {halves : List Half} (h : Begun tokens halves)
    (hc : Chained halves) : TokenChain tokens halves := by
  cases h with
  | joined h => exact absurd hc h.not_chained
  | item h hi => exact h.append_chain (.last hi)

theorem Begun.joined_of_joinable {tokens : List Token} {halves : List Half} (h : Begun tokens halves)
    (hj : Joinable halves) : Joined tokens halves := by
  cases h with
  | joined h => exact h
  | item => exact absurd hj (not_joinable_append_last _ _)

/-- A junction can only follow an item that waits for one. -/
theorem Begun.join {tokens : List Token} {halves : List Half} {v : Bool} (j : Junction)
    (h : Begun tokens (halves ++ [.last v])) :
    Begun (tokens ++ [.junction j]) (halves ++ [⟨v, some j⟩]) := by
  generalize he : halves ++ [Half.last v] = m at h
  cases h with
  | joined h =>
    cases h with
    | nil => exact absurd (congrArg List.length he) (by simp)
    | snoc =>
      obtain ⟨-, hv⟩ := List.append_inj' he rfl
      cases hv
  | item h hi =>
    obtain ⟨rfl, hv⟩ := List.append_inj' he rfl
    cases hv
    rw [List.append_assoc]
    exact .joined (h.snoc hi j)

/-- The tokens that open a bracket, perhaps one behind a negation. -/
def openingTokens (negate : Bool) : List Token :=
  if negate then [.negation, .opening] else [.opening]

theorem tokenItem_bracket {tokens : List Token} {halves : List Half} (negate : Bool)
    (h : TokenChain tokens halves) :
    TokenItem (openingTokens negate ++ tokens ++ [.closing])
      (if negate then !orOfAnds halves else orOfAnds halves) := by
  cases negate with
  | true => exact .negated h
  | false => exact .bracket h

/-- **The invariant of a run**: the tokens that count, bracket by open bracket, and the reducer. -/
inductive Stacked : List Token → Reducer → Prop
  | base {tokens : List Token} {halves : List Half} (h : Begun tokens halves) (pending : Bool) :
      Stacked tokens ⟨halves, [], [], pending⟩
  | opened {outside tokens : List Token} {r : Reducer} {halves : List Half} (hs : Stacked outside r)
      (negate : Bool) (h : Begun tokens halves) (pending : Bool) :
      Stacked (outside ++ openingTokens negate ++ tokens)
        { r.inside negate halves with pending := pending }

theorem Stacked.negatedOpen {tokens : List Token} {r : Reducer} (h : Stacked tokens r) :
    r.NegatedOpen := by
  induction h with
  | base => exact fun d hd => absurd hd List.not_mem_nil
  | @opened _ _ _ halves _ negate _ _ ih => exact ih.inside negate halves

/-- What the innermost bracket has taken can be looked at, and changed, on its own. -/
theorem Stacked.focus {tokens : List Token} {r : Reducer} (h : Stacked tokens r) :
    ∃ outside inner, tokens = outside ++ inner ∧ Begun inner r.current ∧
      ∀ (inner' : List Token) (halves : List Half) (pending : Bool), Begun inner' halves →
        Stacked (outside ++ inner') ⟨halves, r.outer, r.negated, pending⟩ := by
  cases h with
  | @base _ halves h pending =>
    exact ⟨[], tokens, rfl, h, fun inner' halves' pending' h' => .base h' pending'⟩
  | @opened outside inner r halves hs negate h pending =>
    exact ⟨outside ++ openingTokens negate, inner, rfl, h,
      fun inner' halves' pending' h' => .opened hs negate h' pending'⟩

/-- An item at the end of the innermost bracket. -/
theorem Stacked.append_item {tokens item : List Token} {r : Reducer} {v : Bool}
    (h : Stacked tokens r) (hi : TokenItem item v) (hj : Joinable r.current) :
    Stacked (tokens ++ item) ⟨r.current ++ [.last v], r.outer, r.negated, false⟩ := by
  obtain ⟨outside, inner, rfl, hb, change⟩ := h.focus
  rw [List.append_assoc]
  exact change _ _ _ (.item (hb.joined_of_joinable hj) hi)

/-- A step keeps the invariant. -/
theorem Stacked.step {tokens : List Token} {r s : Reducer} {token : Token} (h : Stacked tokens r)
    (hs : Step r token s) : Stacked (tokens ++ kept r.pending token) s := by
  cases hs with
  | truth v hj => exact h.append_item (.truth v) hj
  | junction j hc =>
    obtain ⟨outside, inner, rfl, hb, change⟩ := h.focus
    rw [hc] at hb
    rw [List.append_assoc]
    exact change _ _ _ (hb.join j)
  | negation =>
    obtain ⟨outside, inner, rfl, hb, change⟩ := h.focus
    rw [kept, List.append_nil]
    exact change _ _ _ hb
  | opening =>
    have ho := h.opened r.pending (.joined .nil) false
    rwa [List.append_nil] at ho
  | @closing list outer v hout hv hj =>
    obtain ⟨hc, rfl⟩ := (reduce_eq_ok_iff _ _).mp hv
    cases h with
    | base => cases hout
    | @opened outside inner r halves ho negate hb pending =>
      -- what is inside derives, so the whole bracket is an item of the list outside
      cases hout
      have hneg : Negates { r.inside negate halves with pending := pending } ↔ negate = true :=
        negates_inside ho.negatedOpen negate halves
      have hitem := ho.append_item (tokenItem_bracket negate (hb.chain hc)) hj
      simp only [hneg]
      rw [← List.append_assoc, ← List.append_assoc] at hitem
      cases negate with
      | true => exact hitem
      | false => exact hitem

/-- **A run keeps the invariant.** -/
theorem Stacked.pushAll {tokens more : List Token} {r s : Reducer} (h : Stacked tokens r)
    (hs : r.pushAll more = .ok s) : Stacked (tokens ++ keptAll r.pending more) s := by
  induction more generalizing tokens r with
  | nil =>
    cases hs
    rwa [keptAll, List.append_nil]
  | cons token more ih =>
    obtain ⟨t, ht, hs⟩ := (pushAll_cons_eq_ok_iff _ _ _ _).mp hs
    have hk := ih (h.step ht) hs
    rwa [pending_of_step ht, List.append_assoc] at hk

/-- What has a value derives with that value. -/
theorem tokenSentence_of_run {tokens : List Token} {v : Bool} (h : start.run tokens = .ok v) :
    TokenSentence (withoutIdle tokens) v := by
  rw [run] at h
  cases hs : start.pushAll tokens with
  | error x =>
    rw [hs] at h
    cases h
  | ok s =>
    rw [hs] at h
    have hst : Stacked (keptAll false tokens) s := (Stacked.base (.joined .nil) false).pushAll hs
    rw [keptAll_false] at hst
    generalize withoutIdle tokens = counted at hst ⊢
    cases hst with
    | base hb =>
      obtain ⟨hc, hv⟩ := (reduce_eq_ok_iff _ _).mp h
      exact ⟨_, hb.chain hc, hv⟩
    | opened => cases h

end Reducer

/-! ## 5. Values and derivations -/

/-- **A row of tokens has a value exactly when, its idle negations left out, it derives from the
    grammar with that value**; every other row is a fault. -/
theorem evaluateTokens_iff_sentence (tokens : List Token) :
    (∀ v, evaluateTokens tokens = .ok v ↔ TokenSentence (withoutIdle tokens) v) ∧
      ((∃ x, evaluateTokens tokens = .error x) ↔ ¬ ∃ v, TokenSentence (withoutIdle tokens) v) := by
  have hiff : ∀ v, evaluateTokens tokens = .ok v ↔ TokenSentence (withoutIdle tokens) v := by
    intro v
    refine ⟨Reducer.tokenSentence_of_run, fun h => ?_⟩
    rw [Reducer.evaluateTokens_eq_run, Reducer.run_eq_run_kept, ← Reducer.run_of_tokenSentence h,
      ← Reducer.keptAll_false]
    rfl
  refine ⟨hiff, ?_⟩
  simp only [← hiff]
  cases evaluateTokens tokens with
  | error x =>
    simp only [Except.error.injEq, exists_eq', reduceCtorEq, exists_false, not_false_eq_true]
  | ok v => simp only [reduceCtorEq, exists_false, Except.ok.injEq, exists_eq', not_true_eq_false]

end Verdict
