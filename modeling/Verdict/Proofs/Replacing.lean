import Verdict.Proofs.Sentence

/-!
# One bracket in place of another

Two conditions with one truth value can stand for each other inside a bracket, wherever the bracket
is: behind a negation, inside other brackets, before a fault or behind one, also where the elements
around it make no sense. The whole condition then has one truth value with both, or one fault.

Two evaluations are held side by side. They are alike up to the bracket, since the folder looks one
element ahead and no further; each goes through its own inside without a fault; and behind the
bracket both machines are in one state again.

* `next_before`, `exists_before` -- up to a bracket nothing depends on what is inside it.
* `reaches_behind` -- behind the inside of a bracket the folder is where any other inside leads.
* `push_closing_inside_congr` -- a closing bracket only tells insides by their values.
* `evaluate_bracket_congr` -- **insides of one truth value are interchangeable.**
-/

namespace Verdict

namespace Folder

variable (lookup : Lookup)

/-! ## 1. Up to the bracket -/

/-- The folder with an opening bracket, and what comes behind it, at the end of its elements. -/
def before (f : Folder) (c : Condition) : Folder :=
  { f with rest := f.rest ++ .bracket .opening :: c }

/-- The folder behind an opening bracket that it has read. -/
def inBracket (c : Condition) : Folder := ⟨some (.bracket .opening), c, some .opening⟩

/-- **Answers alike whatever comes behind the bracket**: a fault, a token read before the bracket,
    or the bracket itself. -/
inductive Alike (answer : Condition → Answer) : Prop
  | fault (x : Fault) (h : ∀ c, (answer c).1 = .error x)
  | token (t : Token) (g : Folder) (h : ∀ c, answer c = (.ok (some t), g.before c))
  | opened (h : ∀ c, answer c = (.ok (some .opening), inBracket c))

theorem alike_emitTruth (f : Folder) (truth : Except Fault Bool) :
    Alike fun c => (f.before c).emitTruth truth := by
  cases truth with
  | error x => exact .fault x fun _ => rfl
  | ok v => exact .token (.truth v) { f with last := some (.truth v) } fun _ => rfl

theorem alike_afterTruth (f : Folder) (e : Element) (rest : Condition) :
    Alike fun c => f.afterTruth e (rest ++ .bracket .opening :: c) := by
  match e with
  | .connective operator =>
    exact .token (.junction operator.junction)
      ⟨some (.connective operator), rest, some (.junction operator.junction)⟩ fun _ => rfl
  | .bracket .closing =>
    exact .token .closing ⟨some (.bracket .closing), rest, some .closing⟩ fun _ => rfl
  | .bracket .opening | .comparison _ | .negation _ | .operand _ => exact .fault _ fun _ => rfl

theorem alike_afterNegation (f : Folder) (e : Element) (rest : Condition) :
    Alike fun c => f.afterNegation lookup e (rest ++ .bracket .opening :: c) := by
  match e with
  | .bracket .opening =>
    exact .token .opening ⟨some (.bracket .opening), rest, some .opening⟩ fun _ => rfl
  | .operand (.var name) => exact alike_emitTruth (f.pass (.operand (.var name)) rest) _
  | .bracket .closing | .comparison _ | .connective _ | .negation _
  | .operand (.text _) | .operand (.number _) | .operand (.truth _) =>
    exact .fault _ fun _ => rfl

/-- A bracket is no side of a comparison. -/
theorem comparisonOf_bracket (e : Element) (operator : Comparison) (b : Bracket) :
    ∃ x, comparisonOf lookup [e, .comparison operator, .bracket b] = .error x := by
  cases e <;> exact ⟨_, rfl⟩

/-- A comparison takes the element behind its operator, so that it can take the bracket; but then it
    is a fault. -/
theorem alike_decided (f : Folder) {e : Element} (h : Decided e) (rest : Condition) :
    Alike fun c => f.atBeginning lookup e (rest ++ .bracket .opening :: c) := by
  have alone : ∀ first rest, (∀ operator, first ≠ .comparison operator) →
      Alike fun c => f.atBeginning lookup e (first :: rest ++ .bracket .opening :: c) := by
    intro first rest hf
    simp only [List.cons_append, atBeginning_alone lookup f h (noComparison_cons hf)]
    exact alike_emitTruth (f.pass e (first :: rest)) _
  match rest with
  | [] =>
    have hno : ∀ c, NoComparison (.bracket .opening :: c) := fun c => noComparison_cons nofun
    simp only [List.nil_append, atBeginning_alone lookup f h (hno _)]
    exact alike_emitTruth (f.pass e []) _
  | [.comparison operator] =>
    obtain ⟨x, hx⟩ := comparisonOf_bracket lookup e operator .opening
    refine .fault x fun c => ?_
    rw [List.cons_append, List.nil_append, atBeginning_compared lookup f _ _ _ h, hx]
    rfl
  | .comparison _ :: right :: rest =>
    simp only [List.cons_append, atBeginning_compared lookup f _ _ _ h]
    exact alike_emitTruth (f.pass right rest) _
  | .connective _ :: _ | .negation _ :: _ | .bracket _ :: _ | .operand _ :: _ =>
    exact alone _ _ nofun

theorem alike_atBeginning (f : Folder) (e : Element) (rest : Condition) :
    Alike fun c => f.atBeginning lookup e (rest ++ .bracket .opening :: c) := by
  match e with
  | .bracket .opening =>
    exact .token .opening ⟨some (.bracket .opening), rest, some .opening⟩ fun _ => rfl
  | .negation operator =>
    exact .token .negation ⟨some (.negation operator), rest, some .negation⟩ fun _ => rfl
  | .bracket .closing | .comparison _ | .connective _ | .operand _ =>
    refine alike_decided lookup f ?_ rest
    exact ⟨nofun, nofun⟩

/-- **One answer up to a bracket** is alike whatever comes behind the bracket. -/
theorem next_before (f : Folder) : Alike fun c => (f.before c).next lookup := by
  cases hr : f.rest with
  | nil =>
    have hrest : ∀ c, (f.before c).rest = .bracket .opening :: c := by
      intro c
      rw [before, hr]
      rfl
    by_cases hl : Ended f.last
    · refine .fault (.badChain (.cannotFollow f.previousText "(")) fun c => ?_
      rw [next_of_ended (hrest c) hl]
      rfl
    · refine .opened fun c => ?_
      rcases begins_or_negation hl with hb | hn
      · rw [next_of_begins (hrest c) hb]
        rfl
      · rw [next_of_negation (hrest c) hn]
        rfl
  | cons e rest =>
    have hrest : ∀ c, (f.before c).rest = e :: (rest ++ .bracket .opening :: c) := by
      intro c
      rw [before, hr]
      rfl
    by_cases hl : Ended f.last
    · have hnext : ∀ c, (f.before c).next lookup = _ := fun c => next_of_ended (hrest c) hl
      simp only [hnext]
      exact alike_afterTruth ⟨f.previous, [], f.last⟩ e rest
    · rcases begins_or_negation hl with hb | hn
      · have hnext : ∀ c, (f.before c).next lookup = _ := fun c => next_of_begins (hrest c) hb
        simp only [hnext]
        exact alike_atBeginning lookup ⟨f.previous, [], f.last⟩ e rest
      · have hnext : ∀ c, (f.before c).next lookup = _ := fun c => next_of_negation (hrest c) hn
        simp only [hnext]
        exact alike_afterNegation lookup ⟨f.previous, [], f.last⟩ e rest

/-- **All answers up to a bracket**: a fault before it, or tokens up to its opening; whatever comes
    behind it. The induction is on the number of elements before the bracket. -/
theorem tokens_before (f : Folder) :
    (∃ ts x, ∀ c, (f.before c).tokens lookup = (ts, some x)) ∨
      ∃ ts, ∀ c, Reaches lookup (f.before c) (ts ++ [.opening]) (inBracket c) := by
  induction hn : f.rest.length using Nat.strongRecOn generalizing f with
  | ind n ih =>
    subst hn
    cases next_before lookup f with
    | fault x h => exact .inl ⟨[], x, fun c => tokens_of_fault (h c)⟩
    | token t g h =>
      have hlt : g.rest.length < f.rest.length := by
        have hlt := length_rest_lt (h [])
        simpa only [before, List.length_append, Nat.add_lt_add_iff_right] using hlt
      rcases ih _ hlt g rfl with ⟨ts, x, hts⟩ | ⟨ts, hts⟩
      · refine .inl ⟨t :: ts, x, fun c => ?_⟩
        rw [tokens_eq, h c]
        simp only [hts c]
      · exact .inr ⟨t :: ts, fun c => .cons (h c) (hts c)⟩
    | opened h => exact .inr ⟨[], fun c => .cons (h c) (.nil _)⟩

/-! ## 2. Behind the bracket -/

/-- **Behind a bracket every inside is forgotten**: the folder has read the closing bracket last. -/
theorem reaches_behind {s : Condition} {ts : List Token} (h : Condition.FoldsInto lookup s ts)
    (q : Condition) :
    Reaches lookup (inBracket (s ++ .bracket .closing :: q)) (ts ++ [.closing])
      ⟨some (.bracket .closing), q, some .closing⟩ := by
  have hno : NoComparison (.bracket .closing :: q) := noComparison_cons nofun
  obtain ⟨last, hend, hr⟩ := h (some .opening) _ trivial hno
  obtain ⟨g, hg, hrest, rfl⟩ := exists_reaches_of_run (f := inBracket _) hr
  refine hg.append (.cons ?_ (.nil _))
  rw [next_of_ended hrest hend]
  rfl

end Folder

namespace Reducer

/-! ## 3. The value of a bracket -/

/-- **A closing bracket only tells insides by their values.** -/
theorem push_closing_inside_congr (r : Reducer) (negate : Bool) {halves halves' : List Half}
    (hc : Chained halves) (hc' : Chained halves') (hv : orOfAnds halves = orOfAnds halves') :
    (r.inside negate halves).push .closing = (r.inside negate halves').push .closing := by
  simp only [push, closeBracket, inside, reduce_of_chained hc, reduce_of_chained hc', hv]
  rfl

/-- Tokens up to a bracket, and the tokens inside it. -/
theorem pushAll_inBracket {r s : Reducer} {ts inner : List Token} {halves : List Half}
    (hr : r.pushAll ts = .ok s) (hn : s.NegatedOpen) (ht : Takes inner halves)
    (more : List Token) :
    r.pushAll (ts ++ .opening :: (inner ++ more)) = (s.inside s.pending halves).pushAll more := by
  have hopen : s.pushAll (.opening :: (inner ++ more))
      = (s.inside s.pending []).pushAll (inner ++ more) := rfl
  rw [pushAll_append hr, hopen,
    pushAll_append (ht _ rfl (hn.inside s.pending []) joinable_nil)]
  rfl

theorem pushAll_append_of_fault {r : Reducer} {ts : List Token} {x : Fault}
    (h : r.pushAll ts = .error x) (more : List Token) : r.pushAll (ts ++ more) = .error x := by
  induction ts generalizing r with
  | nil => cases h
  | cons token ts ih =>
    simp only [List.cons_append, pushAll] at h ⊢
    split at h
    · exact h
    · exact ih h

/-- **Insides of one value are taken alike**, wherever the bracket is. -/
theorem pushAll_bracket_congr {ts us : List Token} {halves halves' : List Half}
    (ht : Takes ts halves) (hu : Takes us halves') (hc : Chained halves) (hc' : Chained halves')
    (hv : orOfAnds halves = orOfAnds halves') (front more : List Token) :
    start.pushAll (front ++ .opening :: (ts ++ .closing :: more))
      = start.pushAll (front ++ .opening :: (us ++ .closing :: more)) := by
  cases hs : start.pushAll front with
  | error x => rw [pushAll_append_of_fault hs, pushAll_append_of_fault hs]
  | ok s =>
    have hn : s.NegatedOpen := ((Stacked.base (.joined .nil) false).pushAll hs).negatedOpen
    rw [pushAll_inBracket hs hn ht, pushAll_inBracket hs hn hu]
    simp only [pushAll, push_closing_inside_congr s s.pending hc hc' hv]

end Reducer

namespace Condition

/-! ## 4. Whole conditions -/

/-- What has a truth value is folded and taken wherever a condition may begin, into halves of that
    truth value. -/
theorem exists_takes_of_evaluate {lookup : Lookup} {c : Condition} {v : Bool}
    (h : c.evaluate lookup = .ok v) :
    ∃ ts halves, FoldsInto lookup c ts ∧ Reducer.Takes ts halves ∧ Chained halves ∧
      orOfAnds halves = v := by
  obtain ⟨ts, hts, hv⟩ := (evaluate_eq_ok_iff_tokens _ _ _).mp h
  obtain ⟨halves, hc, rfl⟩ := sentence_of_tokens hts hv
  obtain ⟨us, hf, ht⟩ := exists_takes_of_chain hc
  exact ⟨us, halves, hf, ht, hc.chained, rfl⟩

/-- **Insides of one truth value are interchangeable.** Whatever stands before the bracket and
    behind it, the whole has one truth value, or ends in one fault. -/
theorem evaluate_bracket_congr (lookup : Lookup) (p q s s' : Condition) (b : Bool)
    (hs : s.evaluate lookup = .ok b) (hs' : s'.evaluate lookup = .ok b) :
    Condition.evaluate lookup (p ++ [.bracket .opening] ++ s ++ [.bracket .closing] ++ q)
      = Condition.evaluate lookup
          (p ++ [.bracket .opening] ++ s' ++ [.bracket .closing] ++ q) := by
  obtain ⟨ts, halves, hf, ht, hc, hv⟩ := exists_takes_of_evaluate hs
  obtain ⟨us, halves', hf', hu, hc', hv'⟩ := exists_takes_of_evaluate hs'
  have hwhole : ∀ c : Condition, p ++ [.bracket .opening] ++ c ++ [.bracket .closing] ++ q
      = p ++ .bracket .opening :: (c ++ .bracket .closing :: q) := fun c => by
    simp only [List.append_assoc, List.cons_append, List.nil_append]
  rw [hwhole, hwhole]
  rcases Folder.tokens_before lookup (Folder.start p) with ⟨front, x, h⟩ | ⟨front, h⟩
  · have hfault : ∀ c, Condition.tokens lookup (p ++ .bracket .opening :: c) = (front, some x) := h
    rw [evaluate_of_tokens (hfault _), evaluate_of_tokens (hfault _)]
  · have htokens : ∀ {c ts}, FoldsInto lookup c ts → Condition.tokens lookup
        (p ++ .bracket .opening :: (c ++ .bracket .closing :: q)) = _ := fun hf =>
      ((h _).append (Folder.reaches_behind lookup hf q)).tokens_eq
    rw [evaluate_of_tokens (htokens hf), evaluate_of_tokens (htokens hf')]
    simp only [List.append_assoc, List.cons_append, List.nil_append]
    rw [Reducer.pushAll_bracket_congr ht hu hc hc' (hv.trans hv'.symm)]

/-- Behind a negation and before a fault: a variable in two brackets more. -/
theorem evaluate_bracket_congr_negated :
    let lookup := Lookup.empty.bind "on" "true"
    let s : Condition := [.operand (.var "on")]
    let s' : Condition := [.bracket .opening, .operand (.var "on"), .bracket .closing]
    s.evaluate lookup = .ok true ∧ s'.evaluate lookup = .ok true ∧
      Condition.evaluate lookup ([.negation .not] ++ [.bracket .opening] ++ s ++
          [.bracket .closing] ++ [.operand (.var "off")])
        = Condition.evaluate lookup ([.negation .not] ++ [.bracket .opening] ++ s' ++
            [.bracket .closing] ++ [.operand (.var "off")]) :=
  ⟨rfl, rfl, evaluate_bracket_congr _ _ _ _ _ true rfl rfl⟩

end Condition

end Verdict
