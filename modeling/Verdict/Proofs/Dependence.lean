import Verdict.Pattern.Library
import Verdict.Proofs.FirstFault
import Verdict.Proofs.Sentence

/-!
# What an evaluation depends on

A condition is evaluated where its variables have values, and on nothing else: values of other names
change neither its truth nor its fault. It is evaluated as a whole, too. Where there is a truth value
every variable has a value, also one that could not have changed the truth; and where a variable is
undefined the fault names one that the condition has.

The folder reads from the front and decides a comparison or a variable as soon as it is reached. So
each statement is one about a single answer, and then one about all of them: what a folder has not
read yet is the end of what it had.

* `Folder.next_congr`, `Folder.tokens_congr` -- only the variables among the elements matter.
* `Folder.Run.exists_front` -- what has been read has values.
* `Condition.arises_of_evaluate` -- where a fault arises: a variable, a rule, or the elements alone.
* `Condition.evaluate_depends_on_variables` -- **so it is for whole conditions.**
-/

namespace Verdict

/-! ## 1. Lookups that agree -/

/-- The variables among the elements have the same values in both lookups, or none in both. -/
def Lookup.AgreeOn (c : Condition) (lookup lookup' : Lookup) : Prop :=
  ∀ name, .operand (.var name) ∈ c → lookup name = lookup' name

/-- The variables among the elements have values. -/
def Lookup.DefinedOn (c : Condition) (lookup : Lookup) : Prop :=
  ∀ name, .operand (.var name) ∈ c → lookup name ≠ none

/-- Such a rule leaves it to the lookup to find a variable undefined. -/
def Rule.NeverUndefined (rule : Rule) : Prop :=
  ∀ a b name, rule a b ≠ .error (.undefinedVariable name)

variable {lookup lookup' : Lookup}

theorem Lookup.AgreeOn.mono {c d : Condition} (h : Lookup.AgreeOn c lookup lookup') (hs : d ⊆ c) :
    Lookup.AgreeOn d lookup lookup' :=
  fun name hm => h name (hs hm)

theorem resolve_congr {name : String} (h : lookup name = lookup' name) :
    lookup.resolve name = lookup'.resolve name := by
  rw [Lookup.resolve, Lookup.resolve, h]

theorem defined_of_resolve {name value : String} (h : lookup.resolve name = .ok value) :
    lookup name ≠ none := by
  intro hn
  rw [Lookup.resolve, hn] at h
  cases h

/-- Where a fault of an evaluation arises: a variable has no value, a rule is at fault, or the elements
    do not fit together, in which case the fault names no text. -/
inductive Fault.Arises (lookup : Lookup) (c : Condition) : Fault → Prop
  | undefined {name : String} (h : lookup name = none) : Arises lookup c (.undefinedVariable name)
  | rule {operator : Comparison} {a b : Value} {x : Fault} (hm : .comparison operator ∈ c)
      (h : operator.rule a b = .error x) : Arises lookup c x
  | shape {x : Fault} (h : x.offendingText? = none) : Arises lookup c x

theorem Fault.Arises.mono {c d : Condition} {x : Fault} (h : x.Arises lookup c) (hs : c ⊆ d) :
    x.Arises lookup d := by
  cases h with
  | undefined h => exact .undefined h
  | rule hm h => exact .rule (hs hm) h
  | shape h => exact .shape h

theorem arises_of_resolve {name : String} {x : Fault} (h : lookup.resolve name = .error x)
    (c : Condition) : x.Arises lookup c := by
  cases hl : lookup name with
  | none =>
    rw [Lookup.resolve, hl] at h
    cases h
    exact .undefined hl
  | some value =>
    rw [Lookup.resolve, hl] at h
    cases h

/-! ## 2. The truth of a variable -/

theorem truthOf_congr {es : Condition} (h : Lookup.AgreeOn es lookup lookup') :
    truthOf lookup es = truthOf lookup' es := by
  unfold truthOf
  split
  · rw [resolve_congr (h _ List.mem_cons_self)]
  · rfl
  · rfl

theorem defined_of_truthOf {name : String} {v : Bool}
    (h : truthOf lookup [.operand (.var name)] = .ok v) : lookup name ≠ none := by
  obtain ⟨value, hvalue, -⟩ := bind_eq_ok_iff.mp h
  exact defined_of_resolve hvalue

theorem arises_of_truthOf {es : Condition} {x : Fault} (h : truthOf lookup es = .error x)
    (c : Condition) : x.Arises lookup c := by
  unfold truthOf at h
  split at h
  · rcases bind_eq_error_iff.mp h with hr | ⟨value, -, hvalue⟩
    · exact arises_of_resolve hr c
    · split at hvalue
      · cases hvalue
      · cases hvalue
        exact .shape rfl
  · cases h
    exact .shape rfl
  · cases h
    exact .shape rfl

/-! ## 3. The truth of a comparison -/

theorem coerce_congr (value : String) {o : Operand}
    (h : ∀ name, o = .var name → lookup name = lookup' name) :
    coerce lookup value o = coerce lookup' value o := by
  cases o with
  | var name => rw [coerce, coerce, resolve_congr (h name rfl)]
  | _ => rfl

theorem defined_of_coerce {value name : String} {pair : Value × Value}
    (h : coerce lookup value (.var name) = .ok pair) : lookup name ≠ none := by
  obtain ⟨_, hvalue, -⟩ := map_eq_ok_iff.mp h
  exact defined_of_resolve hvalue

theorem arises_of_coerce {value : String} {o : Operand} {x : Fault}
    (h : coerce lookup value o = .error x) (c : Condition) : x.Arises lookup c := by
  unfold coerce at h
  split at h
  · cases h
  · split at h
    · cases h
    · cases h
      exact .shape rfl
  · split at h
    · cases h
    · cases h
      exact .shape rfl
  · exact arises_of_resolve (map_eq_error_iff.mp h) c

theorem compareOperands_congr {left right : Operand} (operator : Comparison)
    (hl : ∀ name, left = .var name → lookup name = lookup' name)
    (hr : ∀ name, right = .var name → lookup name = lookup' name) :
    compareOperands lookup left operator right = compareOperands lookup' left operator right := by
  unfold compareOperands
  split
  · simp only [resolve_congr (hl _ rfl), coerce_congr _ hr]
  · simp only [resolve_congr (hr _ rfl), coerce_congr _ hl]
  · rfl

/-- **A comparison that is decided has values on both sides.** -/
theorem defined_of_compareOperands {left right : Operand} {operator : Comparison} {v : Bool}
    (h : compareOperands lookup left operator right = .ok v) {name : String}
    (hn : left = .var name ∨ right = .var name) : lookup name ≠ none := by
  unfold compareOperands at h
  split at h
  · obtain ⟨value, hvalue, h⟩ := bind_eq_ok_iff.mp h
    obtain ⟨pair, hpair, -⟩ := bind_eq_ok_iff.mp h
    rcases hn with hn | rfl
    · rw [← Operand.var.inj hn]
      exact defined_of_resolve hvalue
    · exact defined_of_coerce hpair
  · obtain ⟨value, hvalue, h⟩ := bind_eq_ok_iff.mp h
    obtain ⟨pair, hpair, -⟩ := bind_eq_ok_iff.mp h
    rcases hn with rfl | hn
    · exact defined_of_coerce hpair
    · rw [← Operand.var.inj hn]
      exact defined_of_resolve hvalue
  · cases h

theorem arises_of_compareOperands {left right : Operand} {operator : Comparison} {x : Fault}
    (h : compareOperands lookup left operator right = .error x) {c : Condition}
    (hm : .comparison operator ∈ c) : x.Arises lookup c := by
  have hrest : ∀ {name : String} {o : Operand} {decided : Value × Value → Except Fault Bool},
      (∀ pair, decided pair = .error x → x.Arises lookup c) →
      ((lookup.resolve name).bind fun value => (coerce lookup value o).bind decided) = .error x →
      x.Arises lookup c := by
    intro name o decided hdecided h
    rcases bind_eq_error_iff.mp h with h | ⟨value, -, h⟩
    · exact arises_of_resolve h c
    · rcases bind_eq_error_iff.mp h with h | ⟨pair, -, h⟩
      · exact arises_of_coerce h c
      · exact hdecided pair h
  unfold compareOperands at h
  split at h
  · exact hrest (fun pair h => .rule (a := pair.1) (b := pair.2) hm h) h
  · exact hrest (fun pair h => .rule (a := pair.2) (b := pair.1) hm h) h
  · cases h
    exact .shape rfl

theorem comparisonOf_congr {es : Condition} (h : Lookup.AgreeOn es lookup lookup') :
    comparisonOf lookup es = comparisonOf lookup' es := by
  unfold comparisonOf
  split
  · split
    · refine compareOperands_congr _ (fun name hn => h name ?_) (fun name hn => h name ?_)
      · rw [hn]
        exact List.mem_cons_self
      · rw [hn]
        exact List.mem_cons_of_mem _ (List.mem_cons_of_mem _ List.mem_cons_self)
    · rfl
  · rfl
  · rfl

theorem arises_of_comparisonOf {es : Condition} {x : Fault}
    (h : comparisonOf lookup es = .error x) : x.Arises lookup es := by
  unfold comparisonOf at h
  split at h
  · split at h
    · exact arises_of_compareOperands h (List.mem_cons_of_mem _ List.mem_cons_self)
    · cases h
      exact .shape rfl
  · cases h
    exact .shape rfl
  · cases h
    exact .shape rfl

namespace Folder

/-! ## 4. One answer -/

theorem emitTruth_congr (f : Folder) {truth truth' : Except Fault Bool} (h : truth = truth') :
    f.emitTruth truth = f.emitTruth truth' := by rw [h]

/-- **Only the variables that are not read yet matter** for an answer. -/
theorem next_congr {f : Folder} (h : Lookup.AgreeOn f.rest lookup lookup') :
    f.next lookup = f.next lookup' := by
  cases hr : f.rest with
  | nil => rw [next_of_nil lookup hr, next_of_nil lookup' hr]
  | cons e rest =>
    rw [hr] at h
    by_cases hl : Ended f.last
    · rw [next_of_ended hr hl, next_of_ended hr hl]
    · have htruth : truthOf lookup [e] = truthOf lookup' [e] :=
        truthOf_congr (h.mono (List.cons_subset_cons e (List.nil_subset rest)))
      rcases begins_or_negation hl with hb | hn
      · rw [next_of_begins hr hb, next_of_begins hr hb]
        unfold atBeginning
        split
        · rfl
        · rfl
        · split
          · refine emitTruth_congr _ (comparisonOf_congr (h.mono ?_))
            exact (List.prefix_append [e, _, _] _).subset
          · exact emitTruth_congr _ (comparisonOf_congr h)
          · exact emitTruth_congr _ htruth
      · rw [next_of_negation hr hn, next_of_negation hr hn]
        unfold afterNegation
        rw [htruth]

/-- **Where the fault of an answer arises.** -/
theorem arises_of_next {f : Folder} {x : Fault} (h : (f.next lookup).1 = .error x) :
    x.Arises lookup f.rest := by
  have hemit : ∀ {g : Folder} {truth : Except Fault Bool},
      (g.emitTruth truth).1 = .error x → truth = .error x := by
    intro g truth h
    cases truth with
    | ok v => cases h
    | error y =>
      cases h
      rfl
  cases hr : f.rest with
  | nil =>
    rw [next_of_nil lookup hr] at h
    simp only [atEnd] at h
    split at h
    · exact .shape (Except.error.inj h ▸ rfl)
    · exact .shape (Except.error.inj h ▸ rfl)
    · exact .shape (Except.error.inj h ▸ rfl)
    · cases h
  | cons e rest =>
    by_cases hl : Ended f.last
    · rw [next_of_ended hr hl] at h
      simp only [afterTruth] at h
      split at h
      · cases h
      · cases h
      · cases h
        exact .shape rfl
    · rcases begins_or_negation hl with hb | hn
      · rw [next_of_begins hr hb] at h
        simp only [atBeginning] at h
        split at h
        · cases h
        · cases h
        · split at h
          · exact (arises_of_comparisonOf (hemit h)).mono (List.prefix_append [e, _, _] _).subset
          · exact arises_of_comparisonOf (hemit h)
          · exact arises_of_truthOf (hemit h) _
      · rw [next_of_negation hr hn] at h
        simp only [afterNegation] at h
        split at h
        · cases h
        · exact arises_of_truthOf (map_eq_error_iff.mp (hemit h)) _
        · cases h
          exact .shape rfl

/-! ## 5. All answers -/

/-- **A step reads a front of the elements**, and the variables in it have values. -/
theorem Step.exists_front {last : Option Token} {c d : Condition} {token : Token}
    (h : Step lookup last c token d) : ∃ front, c = front ++ d ∧ Lookup.DefinedOn front lookup := by
  cases h with
  | connective _ operator => exact ⟨[_], rfl, fun name hm => nomatch List.mem_singleton.mp hm⟩
  | closing => exact ⟨[_], rfl, fun name hm => nomatch List.mem_singleton.mp hm⟩
  | opening => exact ⟨[_], rfl, fun name hm => nomatch List.mem_singleton.mp hm⟩
  | negation _ operator => exact ⟨[_], rfl, fun name hm => nomatch List.mem_singleton.mp hm⟩
  | comparison _ hv =>
    refine ⟨[_, _, _], rfl, fun name hm => defined_of_compareOperands hv ?_⟩
    simpa only [List.mem_cons, List.not_mem_nil, reduceCtorEq, Element.operand.injEq, false_or,
      or_false, eq_comm] using hm
  | single _ hv =>
    refine ⟨[_], rfl, fun name hm => ?_⟩
    cases List.mem_singleton.mp hm
    exact defined_of_truthOf hv
  | negatedVariable hv =>
    refine ⟨[_], rfl, fun name hm => ?_⟩
    cases List.mem_singleton.mp hm
    exact defined_of_truthOf hv

/-- **A run reads a front of the elements**, and the variables in it have values. -/
theorem Run.exists_front {last last' : Option Token} {c d : Condition} {ts : List Token}
    (h : Run lookup last c ts last' d) :
    ∃ front, c = front ++ d ∧ Lookup.DefinedOn front lookup := by
  induction h with
  | nil => exact ⟨[], rfl, fun _ hm => absurd hm List.not_mem_nil⟩
  | cons hs _ ih =>
    obtain ⟨front, rfl, hfront⟩ := hs.exists_front
    obtain ⟨more, rfl, hmore⟩ := ih
    refine ⟨front ++ more, (List.append_assoc _ _ _).symm, fun name hm => ?_⟩
    rcases List.mem_append.mp hm with hm | hm
    · exact hfront name hm
    · exact hmore name hm

theorem Run.subset {last last' : Option Token} {c d : Condition} {ts : List Token}
    (h : Run lookup last c ts last' d) : d ⊆ c := by
  obtain ⟨front, rfl, -⟩ := h.exists_front
  exact List.subset_append_right front d

/-- **Only the variables that are not read yet matter** for all answers. The induction is on the
    number of elements that are left. -/
theorem tokens_congr {f : Folder} (h : Lookup.AgreeOn f.rest lookup lookup') :
    f.tokens lookup = f.tokens lookup' := by
  induction hn : f.rest.length using Nat.strongRecOn generalizing f with
  | ind n ih =>
    subst hn
    rw [tokens_eq, tokens_eq, ← next_congr h]
    split
    · rfl
    · rfl
    · rename_i token g hnext
      have hrest := Run.subset (.cons (step_of_next hnext).1 (.nil _ _))
      rw [ih _ (length_rest_lt hnext) (h.mono hrest) rfl]

/-- A folder that ends in a fault has it for an answer, behind all its tokens. -/
theorem arises_of_tokens {f : Folder} {ts : List Token} {x : Fault}
    (h : f.tokens lookup = (ts, some x)) : x.Arises lookup f.rest := by
  obtain ⟨g, hreach, hg⟩ := exists_reaches h
  refine Fault.Arises.mono (arises_of_next (f := g) ?_) hreach.run.subset
  rw [tokens_eq] at hg
  split at hg
  · rename_i y _ hnext
    rw [hnext]
    cases hg
    rfl
  · cases hg
  · cases hg

end Folder

namespace Condition

/-! ## 6. Whole conditions -/

theorem agreeOn_iff {c : Condition} :
    (∀ name ∈ c.variableNames, lookup name = lookup' name) ↔ Lookup.AgreeOn c lookup lookup' := by
  simp only [mem_variableNames, Lookup.AgreeOn]

theorem evaluate_congr {c : Condition} (h : Lookup.AgreeOn c lookup lookup') :
    c.evaluate lookup = c.evaluate lookup' := by
  have htokens : tokens lookup c = tokens lookup' c := Folder.tokens_congr (f := Folder.start c) h
  rw [evaluate, evaluate, htokens]

theorem defined_of_evaluate {c : Condition} {v : Bool} (h : c.evaluate lookup = .ok v) :
    Lookup.DefinedOn c lookup := by
  obtain ⟨ts, htokens, -⟩ := (evaluate_eq_ok_iff_tokens lookup c v).mp h
  obtain ⟨last, hrun, -⟩ := Folder.exists_run_of_tokens (f := Folder.start c) htokens
  obtain ⟨front, hc, hfront⟩ := hrun.exists_front
  have hwhole : c = front := hc.trans (List.append_nil front)
  rw [hwhole]
  exact hfront

/-- **Where the fault of an evaluation arises.** The reducer names no text. -/
theorem arises_of_evaluate {c : Condition} {x : Fault} (h : c.evaluate lookup = .error x) :
    x.Arises lookup c := by
  cases htokens : tokens lookup c with
  | mk ts fault =>
    obtain ⟨g, hreach, -⟩ := Folder.exists_reaches (f := Folder.start c) htokens
    rw [evaluate_of_tokens htokens] at h
    rcases bind_eq_error_iff.mp h with hpush | ⟨r, -, h⟩
    · -- the reducer faults for brackets alone
      rcases Reducer.pushAll_of_run hreach.run Reducer.fits_start with ⟨-, hp⟩ | ⟨-, r, hp, -⟩
      · rw [hpush] at hp
        cases hp
        exact .shape rfl
      · rw [hpush] at hp
        cases hp
    · cases fault with
      | none =>
        obtain ⟨cause, rfl⟩ := Reducer.exists_cause_of_finish h
        exact .shape rfl
      | some y =>
        cases h
        exact Folder.arises_of_tokens (f := Folder.start c) htokens

theorem undefined_of_evaluate {c : Condition} {name : String}
    (hrules : ∀ operator, .comparison operator ∈ c → operator.rule.NeverUndefined)
    (h : c.evaluate lookup = .error (.undefinedVariable name)) : lookup name = none := by
  cases arises_of_evaluate h with
  | undefined h => exact h
  | rule hm h => exact absurd h (hrules _ hm _ _ name)
  | shape h => cases h

/-- **What an evaluation depends on**, if the rules leave undefined variables to the lookup. Two
    lookups that agree on the variables of a condition give it one truth value, or one fault. A
    truth value needs the values of all its variables. An undefined variable that is at fault is one
    of them. -/
theorem evaluate_depends_on_variables (c : Condition)
    (hrules : ∀ operator, .comparison operator ∈ c → operator.rule.NeverUndefined)
    (lookup lookup' : Lookup) :
    ((∀ name ∈ c.variableNames, lookup name = lookup' name) →
        c.evaluate lookup = c.evaluate lookup') ∧
      (∀ v, c.evaluate lookup = .ok v → ∀ name ∈ c.variableNames, lookup name ≠ none) ∧
      ∀ name, c.evaluate lookup = .error (.undefinedVariable name) →
        name ∈ c.variableNames ∧ lookup name = none := by
  refine ⟨fun hagree => evaluate_congr (agreeOn_iff.mp hagree), fun v hv name hm => ?_,
    fun name hfault => ?_⟩
  · exact defined_of_evaluate hv name (mem_variableNames.mp hm)
  · have hnone := undefined_of_evaluate hrules hfault
    refine ⟨Classical.byContradiction fun hout => ?_, hnone⟩
    -- a value for the name would change nothing, and yet it would not be undefined any more
    have hsame : c.evaluate lookup = c.evaluate (lookup.bind name "") := by
      refine evaluate_congr fun other hm => (Lookup.bind_of_ne lookup "" ?_).symm
      rintro rfl
      exact hout (mem_variableNames.mpr hm)
    have hvalue := undefined_of_evaluate hrules (hsame ▸ hfault)
    rw [Lookup.bind_self] at hvalue
    cases hvalue

/-- No fault of a default rule names a text. -/
theorem offendingText?_of_default [RegexLibrary] {operator : Comparison}
    (h : operator ∈ Comparison.defaults) {a b : Value} {x : Fault}
    (hx : operator.rule a b = .error x) : x.offendingText? = none := by
  have htexts : ∀ test, Rule.onTexts test a b = .error x → x.offendingText? = none := by
    intro test hx
    unfold Rule.onTexts at hx
    split at hx
    · cases hx
    · cases hx
      rfl
  have hordered : ∀ accept, Rule.ordered accept a b = .error x → x.offendingText? = none := by
    intro accept hx
    unfold Rule.ordered at hx
    split at hx
    · cases hx
    · cases hx
    · cases hx
      rfl
  have hequal : Rule.equal a b = .error x → x.offendingText? = none := by
    intro hx
    unfold Rule.equal at hx
    split at hx
    · cases hx
    · cases hx
    · cases hx
    · cases hx
      rfl
  have hmatches : Rule.matchesPattern a b = .error x → x.offendingText? = none := by
    intro hx
    unfold Rule.matchesPattern at hx
    split at hx
    · split at hx
      · cases hx
      · cases hx
        rfl
    · cases hx
      rfl
  simp only [Comparison.defaults, List.mem_cons, List.not_mem_nil, or_false] at h
  rcases h with rfl | rfl | rfl | rfl | rfl | rfl | rfl | rfl | rfl | rfl | rfl | rfl
  · exact hequal hx
  · exact hequal (map_eq_error_iff.mp hx)
  · exact hordered _ hx
  · exact hordered _ hx
  · exact hordered _ hx
  · exact hordered _ hx
  · exact htexts _ hx
  · exact htexts _ hx
  · exact htexts _ hx
  · exact htexts _ hx
  · exact htexts _ hx
  · exact hmatches hx

/-- The default rules leave undefined variables to the lookup. -/
theorem neverUndefined_of_default [RegexLibrary] {operator : Comparison}
    (h : operator ∈ Comparison.defaults) : operator.rule.NeverUndefined := by
  intro a b name hx
  cases offendingText?_of_default h hx

/-- A variable behind an `||` that holds already is needed all the same. -/
theorem evaluate_depends_on_variables_or :
    let lookup := Lookup.empty.bind "on" "true"
    let c : Condition := [.operand (.var "on"), .connective .or, .operand (.var "kind"),
      .comparison .equal, .operand (.text "a")]
    (∀ operator, .comparison operator ∈ c → operator.rule.NeverUndefined) ∧
      c.evaluate lookup = .error (.undefinedVariable "kind") ∧
      ("kind" ∈ Condition.variableNames c ∧ lookup "kind" = none) ∧
      c.evaluate (lookup.bind "kind" "b") = .ok true ∧
      ∀ name ∈ Condition.variableNames c, lookup.bind "kind" "b" name ≠ none := by
  intro lookup c
  have hrules : ∀ operator, .comparison operator ∈ c → operator.rule.NeverUndefined := by
    intro operator hm
    simp only [c, List.mem_cons, List.not_mem_nil, reduceCtorEq, false_or, or_false,
      Element.comparison.injEq] at hm
    exact hm ▸ neverUndefined_of_default List.mem_cons_self
  have hfault : c.evaluate lookup = .error (.undefinedVariable "kind") := rfl
  have htrue : c.evaluate (lookup.bind "kind" "b") = .ok true := rfl
  exact ⟨hrules, hfault, (evaluate_depends_on_variables c hrules lookup lookup).2.2 _ hfault, htrue,
    (evaluate_depends_on_variables c hrules (lookup.bind "kind" "b") lookup).2.1 _ htrue⟩

end Condition

end Verdict
