import Verdict.Evaluation
import Verdict.Proofs.Bracketing
import Verdict.Proofs.FolderRuns

/-!
# Conditions that make a sentence

Evaluating a condition builds no tree: a folder turns the elements into tokens, looking one element
ahead, and a reducer takes the tokens. This file gives the grammar of conditions,

    E ::= I (connective I)*
    I ::= "(" E ")" | negation "(" E ")" | negation variable | variable
        | operand comparison operand

and shows that a condition has a truth value exactly when it derives from `E`, each comparison and
each variable in it having one, also those on which the value does not depend.

* `Folds` -- a row of elements read as the tokens that count, without regard to their order.
* `folds_of_run` -- what a run of the folder answers, idle negations left out, is such a reading.
* `item_of_tokenItem` -- a derivation of the tokens is one of the elements.
* `exists_takes_of_chain` -- a derivation of the elements folds into tokens that are taken.
* `evaluate_eq_ok_iff_sentence` -- the truth value of a condition is that of its derivation.
-/

namespace Verdict

namespace Condition

/-! ## 1. The grammar -/

mutual

/-- One item of a condition, with its truth value. -/
inductive Item (lookup : Lookup) : Condition → Bool → Prop
  | bracket {c : Condition} {halves : List Half} (h : Chain lookup c halves) :
      Item lookup (.bracket .opening :: (c ++ [.bracket .closing])) (orOfAnds halves)
  | negatedBracket (operator : Negation) {c : Condition} {halves : List Half}
      (h : Chain lookup c halves) :
      Item lookup (.negation operator :: .bracket .opening :: (c ++ [.bracket .closing]))
        (!orOfAnds halves)
  | negatedVariable (operator : Negation) {name : String} {v : Bool}
      (h : truthOf lookup [.operand (.var name)] = .ok v) :
      Item lookup [.negation operator, .operand (.var name)] (!v)
  | single {name : String} {v : Bool} (h : truthOf lookup [.operand (.var name)] = .ok v) :
      Item lookup [.operand (.var name)] v
  | comparison {left right : Operand} {operator : Comparison} {v : Bool}
      (h : comparisonOf lookup [.operand left, .comparison operator, .operand right] = .ok v) :
      Item lookup [.operand left, .comparison operator, .operand right] v

/-- Items between connectives, with their truth values and the junctions behind them. -/
inductive Chain (lookup : Lookup) : Condition → List Half → Prop
  | last {c : Condition} {v : Bool} (h : Item lookup c v) : Chain lookup c [.last v]
  | join {c d : Condition} {v : Bool} {halves : List Half} (h : Item lookup c v)
      (operator : Connective) (hs : Chain lookup d halves) :
      Chain lookup (c ++ .connective operator :: d) (⟨v, some operator.junction⟩ :: halves)

end

/-- The condition derives from `E`, with a truth value: `and` binds tighter than `or`. -/
def Sentence (lookup : Lookup) (c : Condition) (v : Bool) : Prop :=
  ∃ halves, Chain lookup c halves ∧ orOfAnds halves = v

/-! ## 2. What is evaluated derives -/

/-- Elements read as the tokens that count: an item that has been decided is a truth value. -/
inductive Folds (lookup : Lookup) : Condition → List Token → Prop
  | nil : Folds lookup [] []
  | opening {c : Condition} {ts : List Token} (h : Folds lookup c ts) :
      Folds lookup (.bracket .opening :: c) (.opening :: ts)
  | closing {c : Condition} {ts : List Token} (h : Folds lookup c ts) :
      Folds lookup (.bracket .closing :: c) (.closing :: ts)
  | connective (operator : Connective) {c : Condition} {ts : List Token} (h : Folds lookup c ts) :
      Folds lookup (.connective operator :: c) (.junction operator.junction :: ts)
  | negatedOpening (operator : Negation) {c : Condition} {ts : List Token}
      (h : Folds lookup c ts) :
      Folds lookup (.negation operator :: .bracket .opening :: c) (.negation :: .opening :: ts)
  | item {c d : Condition} {v : Bool} {ts : List Token} (hi : Item lookup c v)
      (h : Folds lookup d ts) : Folds lookup (c ++ d) (.truth v :: ts)

/-- **A run to the end reads its elements.** Behind a negation the element that was the negation is
    read together with the next one. -/
theorem folds_of_run {lookup : Lookup} {last last' : Option Token} {c : Condition}
    {ts : List Token} (h : Folder.Run lookup last c ts last' []) (hend : Folder.MayEnd last') :
    (last ≠ some .negation → Folds lookup c (withoutIdle ts)) ∧
      (last = some .negation → ∀ operator,
        Folds lookup (.negation operator :: c) (withoutIdle (.negation :: ts))) := by
  generalize hd : ([] : Condition) = d at h
  induction h with
  | nil last c =>
    subst hd
    refine ⟨fun _ => .nil, fun hl => ?_⟩
    -- behind a negation there is something to read: an opening bracket or a variable
    rcases hend with hnone | hend
    · rw [hl] at hnone
      cases hnone
    · exact absurd hend (Folder.not_ended_of_negation hl)
  | @cons last _ _ rest _ token ts hs _ ih =>
    obtain ⟨plain, behind⟩ := ih hend hd
    cases hs with
    | connective hl operator =>
      exact ⟨fun _ => .connective operator (plain (by simp)),
        fun hneg => absurd hl (Folder.not_ended_of_negation hneg)⟩
    | closing hl =>
      exact ⟨fun _ => .closing (plain (by simp)),
        fun hneg => absurd hl (Folder.not_ended_of_negation hneg)⟩
    | opening hl =>
      exact ⟨fun _ => .opening (plain (by simp)),
        fun _ operator => .negatedOpening operator (plain (by simp))⟩
    | negation hl operator =>
      exact ⟨fun _ => behind rfl operator,
        fun hneg => absurd hl (Folder.not_begins_of_negation hneg)⟩
    | comparison hl hv =>
      exact ⟨fun _ => .item (.comparison hv) (plain (by simp)),
        fun hneg => absurd hl (Folder.not_begins_of_negation hneg)⟩
    | single hl hv hc =>
      exact ⟨fun _ => .item (.single hv) (plain (by simp)),
        fun hneg => absurd hl (Folder.not_begins_of_negation hneg)⟩
    | negatedVariable hv =>
      exact ⟨fun hne => absurd rfl hne,
        fun _ operator => .item (.negatedVariable operator hv) (plain (by simp))⟩

/-- **A derivation of the tokens is one of the elements.** The induction is on the derivation of the
    tokens, over items and chains at once; each takes its elements from the front. -/
theorem chain_of_tokenChain {lookup : Lookup} {ts : List Token} {halves : List Half}
    (h : TokenChain ts halves) {c : Condition} {more : List Token}
    (hf : Folds lookup c (ts ++ more)) :
    ∃ front rest, c = front ++ rest ∧ Chain lookup front halves ∧ Folds lookup rest more := by
  refine @TokenChain.rec
    (fun ts v _ => ∀ c more, Folds lookup c (ts ++ more) →
      ∃ front rest, c = front ++ rest ∧ Item lookup front v ∧ Folds lookup rest more)
    (fun ts halves _ => ∀ c more, Folds lookup c (ts ++ more) →
      ∃ front rest, c = front ++ rest ∧ Chain lookup front halves ∧ Folds lookup rest more)
    ?truth ?bracket ?negated ?last ?join _ _ h c more hf
  case truth =>
    intro v c more hf
    cases hf with
    | item hi hf => exact ⟨_, _, rfl, hi, hf⟩
  case bracket =>
    intro ts halves _ ih c more hf
    rw [List.cons_append, List.append_assoc] at hf
    cases hf with
    | opening hf =>
      obtain ⟨front, rest, rfl, hc, hf⟩ := ih _ _ hf
      cases hf with
      | closing hf =>
        exact ⟨_, _, by simp only [List.cons_append, List.append_assoc, List.nil_append],
          .bracket hc, hf⟩
  case negated =>
    intro ts halves _ ih c more hf
    rw [List.cons_append, List.cons_append, List.append_assoc] at hf
    cases hf with
    | negatedOpening operator hf =>
      obtain ⟨front, rest, rfl, hc, hf⟩ := ih _ _ hf
      cases hf with
      | closing hf =>
        exact ⟨_, _, by simp only [List.cons_append, List.append_assoc, List.nil_append],
          .negatedBracket operator hc, hf⟩
  case last =>
    intro ts v _ ih c more hf
    obtain ⟨front, rest, hc, hi, hf⟩ := ih c more hf
    exact ⟨front, rest, hc, .last hi, hf⟩
  case join =>
    intro ts us v halves _ j _ ih ihs c more hf
    rw [List.append_assoc, List.cons_append] at hf
    obtain ⟨front, rest, rfl, hi, hf⟩ := ih _ _ hf
    cases hf with
    | connective operator hf =>
      obtain ⟨front', rest, rfl, hc, hf⟩ := ihs _ _ hf
      exact ⟨_, _, by simp only [List.append_assoc, List.cons_append], .join hi operator hc, hf⟩

/-- What is folded without a fault into tokens with a value derives with that value. -/
theorem sentence_of_tokens {lookup : Lookup} {c : Condition} {ts : List Token} {v : Bool}
    (hf : Condition.tokens lookup c = (ts, none)) (hv : Reducer.start.run ts = .ok v) :
    Sentence lookup c v := by
  rw [Folder.tokens_start] at hf
  obtain ⟨last, hr, hend⟩ := (Folder.tokens_eq_iff_run _ _ _).mp hf
  obtain ⟨halves, hc, rfl⟩ := Reducer.tokenSentence_of_run hv
  have hfolds := (folds_of_run hr hend).1 (by simp [Folder.start])
  rw [← List.append_nil (withoutIdle ts)] at hfolds
  obtain ⟨front, rest, hsplit, hchain, hrest⟩ := chain_of_tokenChain hc hfolds
  cases hrest
  rw [List.append_nil] at hsplit
  exact ⟨halves, by rwa [show c = front from hsplit], rfl⟩

/-! ## 3. What derives is evaluated -/

/-- Where a condition may begin, the elements fold into the tokens, whatever comes behind them but a
    comparison. -/
def FoldsInto (lookup : Lookup) (c : Condition) (ts : List Token) : Prop :=
  ∀ last more, Folder.Begins last → Folder.NoComparison more →
    ∃ last', Folder.Ended last' ∧ Folder.Run lookup last (c ++ more) ts last' more

/-- The inside of a bracket, and the bracket that closes it. -/
theorem FoldsInto.closed {lookup : Lookup} {c : Condition} {ts : List Token}
    (h : FoldsInto lookup c ts) (more : Condition) :
    Folder.Run lookup (some .opening) (c ++ [.bracket .closing] ++ more) (ts ++ [.closing])
      (some .closing) more := by
  have hno : Folder.NoComparison (.bracket .closing :: more) :=
    Folder.noComparison_cons fun _ he => by cases he
  obtain ⟨last, hend, hr⟩ := h (some .opening) _ trivial hno
  rw [List.append_assoc]
  exact hr.append (.cons (.closing hend) (.nil _ _))

theorem FoldsInto.bracket {lookup : Lookup} {c : Condition} {ts : List Token}
    (h : FoldsInto lookup c ts) :
    FoldsInto lookup (.bracket .opening :: (c ++ [.bracket .closing]))
      (.opening :: (ts ++ [.closing])) :=
  fun _ more hl _ =>
    ⟨some .closing, trivial, .cons (.opening (Folder.not_ended_of_begins hl)) (h.closed more)⟩

theorem FoldsInto.negatedBracket {lookup : Lookup} {c : Condition} {ts : List Token}
    (h : FoldsInto lookup c ts) (operator : Negation) :
    FoldsInto lookup (.negation operator :: .bracket .opening :: (c ++ [.bracket .closing]))
      (.negation :: .opening :: (ts ++ [.closing])) :=
  fun _ more hl _ =>
    ⟨some .closing, trivial, .cons (.negation hl operator) (.cons (.opening id) (h.closed more))⟩

theorem FoldsInto.join {lookup : Lookup} {c d : Condition} {ts us : List Token}
    (h : FoldsInto lookup c ts) (operator : Connective) (hs : FoldsInto lookup d us) :
    FoldsInto lookup (c ++ .connective operator :: d) (ts ++ .junction operator.junction :: us) := by
  intro last more hl hmore
  have hno : Folder.NoComparison (.connective operator :: (d ++ more)) :=
    Folder.noComparison_cons fun _ he => by cases he
  obtain ⟨last', hend, hr⟩ := h last _ hl hno
  obtain ⟨last'', hend', hr'⟩ := hs (some (.junction operator.junction)) more trivial hmore
  rw [List.append_assoc]
  exact ⟨last'', hend', hr.append (.cons (.connective hend operator) hr')⟩

theorem foldsInto_negatedVariable {lookup : Lookup} (operator : Negation) {name : String} {v : Bool}
    (hv : truthOf lookup [.operand (.var name)] = .ok v) :
    FoldsInto lookup [.negation operator, .operand (.var name)] [.negation, .truth (!v)] :=
  fun _ _ hl _ =>
    ⟨some (.truth (!v)), trivial,
      .cons (.negation hl operator) (.cons (.negatedVariable hv) (.nil _ _))⟩

theorem foldsInto_single {lookup : Lookup} {name : String} {v : Bool}
    (hv : truthOf lookup [.operand (.var name)] = .ok v) :
    FoldsInto lookup [.operand (.var name)] [.truth v] :=
  fun _ _ hl hmore => ⟨some (.truth v), trivial, .cons (.single hl hv hmore) (.nil _ _)⟩

theorem foldsInto_comparison {lookup : Lookup} {left right : Operand} {operator : Comparison}
    {v : Bool}
    (hv : comparisonOf lookup [.operand left, .comparison operator, .operand right] = .ok v) :
    FoldsInto lookup [.operand left, .comparison operator, .operand right] [.truth v] :=
  fun _ _ hl _ => ⟨some (.truth v), trivial, .cons (.comparison hl hv) (.nil _ _)⟩

/-- The negation before a variable is idle: the value behind it is inverted already. -/
theorem takes_idle (v : Bool) : Reducer.Takes [.negation, .truth v] [.last v] := by
  intro r _ _ hj
  refine (Reducer.pushAll_cons_eq_ok_iff _ _ _ _).mpr ⟨_, .negation r, ?_⟩
  exact (Reducer.pushAll_cons_eq_ok_iff _ _ _ _).mpr ⟨_, .truth v hj, rfl⟩

theorem Chain.chained {lookup : Lookup} {c : Condition} {halves : List Half}
    (h : Chain lookup c halves) : Chained halves := by
  cases h with
  | last h => exact .last _
  | join h operator hs => exact .cons _ _ hs.chained

/-- **A derivation folds into tokens that are taken.** The induction is on the derivation, over items
    and chains at once. -/
theorem exists_takes_of_chain {lookup : Lookup} {c : Condition} {halves : List Half}
    (h : Chain lookup c halves) : ∃ ts, FoldsInto lookup c ts ∧ Reducer.Takes ts halves := by
  refine @Chain.rec lookup
    (fun c v _ => ∃ ts, FoldsInto lookup c ts ∧ Reducer.Takes ts [.last v])
    (fun c halves _ => ∃ ts, FoldsInto lookup c ts ∧ Reducer.Takes ts halves)
    ?bracket ?negatedBracket ?negatedVariable ?single ?comparison ?last ?join _ _ h
  case bracket =>
    intro c halves hc htakes
    obtain ⟨ts, hf, ht⟩ := htakes
    exact ⟨_, hf.bracket, ht.bracket hc.chained⟩
  case negatedBracket =>
    intro operator c halves hc htakes
    obtain ⟨ts, hf, ht⟩ := htakes
    exact ⟨_, hf.negatedBracket operator, ht.negated hc.chained⟩
  case negatedVariable =>
    intro operator name v hv
    exact ⟨_, foldsInto_negatedVariable operator hv, takes_idle _⟩
  case single =>
    intro name v hv
    exact ⟨_, foldsInto_single hv, Reducer.takes_truth v⟩
  case comparison =>
    intro left right operator v hv
    exact ⟨_, foldsInto_comparison hv, Reducer.takes_truth v⟩
  case last => exact fun _ ih => ih
  case join =>
    intro c d v halves hi operator hs htakes htakes'
    obtain ⟨ts, hf, ht⟩ := htakes
    obtain ⟨us, hf', ht'⟩ := htakes'
    exact ⟨_, hf.join operator hf', ht.join operator.junction ht'⟩

/-- What derives folds without a fault into tokens with the value that it derives with. -/
theorem tokens_of_sentence {lookup : Lookup} {c : Condition} {v : Bool}
    (h : Sentence lookup c v) :
    ∃ ts, Condition.tokens lookup c = (ts, none) ∧ Reducer.start.run ts = .ok v := by
  obtain ⟨halves, hc, rfl⟩ := h
  obtain ⟨ts, hf, ht⟩ := exists_takes_of_chain hc
  obtain ⟨last, hend, hr⟩ := hf none [] trivial fun _ he => by cases he
  rw [List.append_nil] at hr
  refine ⟨ts, (Folder.tokens_eq_iff_run _ (Folder.start c) _).mpr ⟨last, hr, .inr hend⟩, ?_⟩
  rw [Reducer.run, ht Reducer.start rfl (fun d hd => absurd hd List.not_mem_nil)
    Reducer.joinable_nil]
  exact reduce_of_chained hc.chained

/-! ## 4. Truth values and derivations -/

/-- A condition has a truth value when folding it meets no fault and the tokens have that value. -/
theorem evaluate_eq_ok_iff_tokens (lookup : Lookup) (c : Condition) (v : Bool) :
    c.evaluate lookup = .ok v ↔
      ∃ ts, Condition.tokens lookup c = (ts, none) ∧ Reducer.start.run ts = .ok v := by
  cases hc : Condition.tokens lookup c with
  | mk ts fault =>
    rw [evaluate_of_tokens hc]
    cases fault with
    | none =>
      refine ⟨fun h => ⟨ts, rfl, h⟩, fun h => ?_⟩
      obtain ⟨_, ⟨⟩, h⟩ := h
      exact h
    | some x =>
      simp only [Prod.mk.injEq, reduceCtorEq, and_false, false_and, exists_false, iff_false]
      cases Reducer.start.pushAll ts <;> exact nofun

/-- **A condition has a truth value exactly when it derives from the grammar with that value.** -/
theorem evaluate_eq_ok_iff_sentence (lookup : Lookup) (c : Condition) (v : Bool) :
    c.evaluate lookup = .ok v ↔ Sentence lookup c v := by
  rw [evaluate_eq_ok_iff_tokens]
  constructor
  · intro h
    obtain ⟨ts, hf, hv⟩ := h
    exact sentence_of_tokens hf hv
  · exact tokens_of_sentence

end Condition

end Verdict
