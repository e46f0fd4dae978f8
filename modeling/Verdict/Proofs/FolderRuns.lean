import Verdict.Folding
import Verdict.Proofs.Outcome

/-!
# Runs of the folder

`Folder.next` answers with a token, with nothing or with a fault. This file says once what an answer
with a token asks for and how much it reads (`Folder.Step`), strings such answers together
(`Folder.Run`), and shows that the tokens of a condition without a fault are those of a run to its
end.

* `step_of_next`, `exists_next_of_step` -- a token is answered exactly where a step leads.
* `tokens_eq` -- the tokens from a folder on, without a count of how many there may be.
* `exists_reaches` -- the folder behind all tokens, whether a fault or the end comes next.
* `tokens_eq_iff_run` -- no fault: a run through all elements, to a token that may be the last.
-/

namespace Verdict

namespace Folder

/-! ## 1. One answer -/

/-- Behind such a token a connective or a closing bracket may come. -/
def Ended : Option Token → Prop
  | some (.truth _) | some .closing => True
  | _ => False

/-- Behind such a token, or at the start, a condition may begin. -/
def Begins : Option Token → Prop
  | none | some (.junction _) | some .opening => True
  | _ => False

/-- Behind such a token, or at the start, the elements may end. -/
def MayEnd (last : Option Token) : Prop := last = none ∨ Ended last

/-- The elements do not go on with a comparison. -/
def NoComparison (c : Condition) : Prop := ∀ operator, c.head? ≠ some (.comparison operator)

theorem not_ended_of_begins {last : Option Token} (h : Begins last) : ¬ Ended last := by
  intro hl
  cases last with
  | none => exact hl
  | some token => cases token <;> first | exact hl | exact h

theorem not_ended_of_negation {last : Option Token} (h : last = some .negation) : ¬ Ended last := by
  rw [h]
  exact id

theorem not_begins_of_negation {last : Option Token} (h : last = some .negation) :
    ¬ Begins last := by
  rw [h]
  exact id

theorem begins_or_negation {last : Option Token} (h : ¬ Ended last) :
    Begins last ∨ last = some .negation := by
  cases last with
  | none => exact .inl trivial
  | some token =>
    cases token with
    | truth _ => exact absurd trivial h
    | closing => exact absurd trivial h
    | junction _ => exact .inl trivial
    | opening => exact .inl trivial
    | negation => exact .inr rfl

theorem next_of_ended {lookup : Lookup} {f : Folder} {e : Element} {rest : Condition}
    (hr : f.rest = e :: rest) (hl : Ended f.last) : f.next lookup = f.afterTruth e rest := by
  unfold next
  rw [hr]
  cases h : f.last with
  | none =>
    rw [h] at hl
    exact absurd hl id
  | some token =>
    rw [h] at hl
    cases token with
    | truth _ => rfl
    | closing => rfl
    | junction _ => exact absurd hl id
    | opening => exact absurd hl id
    | negation => exact absurd hl id

theorem next_of_begins {lookup : Lookup} {f : Folder} {e : Element} {rest : Condition}
    (hr : f.rest = e :: rest) (hl : Begins f.last) :
    f.next lookup = f.atBeginning lookup e rest := by
  unfold next
  rw [hr]
  cases h : f.last with
  | none => rfl
  | some token =>
    rw [h] at hl
    cases token with
    | junction _ => rfl
    | opening => rfl
    | truth _ => exact absurd hl id
    | closing => exact absurd hl id
    | negation => exact absurd hl id

theorem next_of_negation {lookup : Lookup} {f : Folder} {e : Element} {rest : Condition}
    (hr : f.rest = e :: rest) (hl : f.last = some .negation) :
    f.next lookup = f.afterNegation lookup e rest := by
  simp only [next, hr, hl]

theorem noComparison_cons {e : Element} {c : Condition} (h : ∀ operator, e ≠ .comparison operator) :
    NoComparison (e :: c) :=
  fun operator he => h operator (Option.some.inj he)

/-- Such an element is decided at once where a condition begins, alone or as a side of a
    comparison. -/
def Decided (e : Element) : Prop := e ≠ .bracket .opening ∧ ∀ operator, e ≠ .negation operator

theorem decided_operand (o : Operand) : Decided (.operand o) := ⟨nofun, nofun⟩

theorem atBeginning_alone (lookup : Lookup) (f : Folder) {e : Element} {rest : Condition}
    (h : Decided e) (hc : NoComparison rest) :
    f.atBeginning lookup e rest = (f.pass e rest).emitTruth (truthOf lookup [e]) := by
  simp only [atBeginning]
  split
  · exact absurd rfl h.1
  · exact absurd rfl (h.2 _)
  · split
    · exact absurd rfl (hc _)
    · exact absurd rfl (hc _)
    · rfl

theorem atBeginning_compared (lookup : Lookup) (f : Folder) {e : Element} (operator : Comparison)
    (right : Element) (rest : Condition) (h : Decided e) :
    f.atBeginning lookup e (.comparison operator :: right :: rest)
      = (f.pass right rest).emitTruth (comparisonOf lookup [e, .comparison operator, right]) := by
  simp only [atBeginning]
  split
  · exact absurd rfl h.1
  · exact absurd rfl (h.2 _)
  · rfl

/-- **An answer with a token**: the last token, the elements, the token, the elements behind it. -/
inductive Step (lookup : Lookup) : Option Token → Condition → Token → Condition → Prop
  | connective {last : Option Token} {c : Condition} (h : Ended last) (operator : Connective) :
      Step lookup last (.connective operator :: c) (.junction operator.junction) c
  | closing {last : Option Token} {c : Condition} (h : Ended last) :
      Step lookup last (.bracket .closing :: c) .closing c
  | opening {last : Option Token} {c : Condition} (h : ¬ Ended last) :
      Step lookup last (.bracket .opening :: c) .opening c
  | negation {last : Option Token} {c : Condition} (h : Begins last) (operator : Negation) :
      Step lookup last (.negation operator :: c) .negation c
  | comparison {last : Option Token} {c : Condition} {left right : Operand} {operator : Comparison}
      {v : Bool} (h : Begins last)
      (hv : comparisonOf lookup [.operand left, .comparison operator, .operand right] = .ok v) :
      Step lookup last (.operand left :: .comparison operator :: .operand right :: c) (.truth v) c
  | single {last : Option Token} {c : Condition} {name : String} {v : Bool} (h : Begins last)
      (hv : truthOf lookup [.operand (.var name)] = .ok v) (hc : NoComparison c) :
      Step lookup last (.operand (.var name) :: c) (.truth v) c
  | negatedVariable {c : Condition} {name : String} {v : Bool}
      (hv : truthOf lookup [.operand (.var name)] = .ok v) :
      Step lookup (some .negation) (.operand (.var name) :: c) (.truth (!v)) c

/-- A token that a value has to stand before. -/
def NeedsValue : Token → Prop
  | .junction _ | .closing => True
  | _ => False

/-- **Such tokens are answered behind a value, all others elsewhere.** -/
theorem Step.needsValue_iff {lookup : Lookup} {last : Option Token} {c d : Condition}
    {token : Token} (h : Step lookup last c token d) : NeedsValue token ↔ Ended last := by
  cases h with
  | connective h => exact ⟨fun _ => h, fun _ => trivial⟩
  | closing h => exact ⟨fun _ => h, fun _ => trivial⟩
  | opening h => exact ⟨False.elim, h⟩
  | negation h => exact ⟨False.elim, not_ended_of_begins h⟩
  | comparison h => exact ⟨False.elim, not_ended_of_begins h⟩
  | single h => exact ⟨False.elim, not_ended_of_begins h⟩
  | negatedVariable => exact ⟨False.elim, id⟩

/-- Only operands can be compared. -/
theorem operands_of_comparisonOf {lookup : Lookup} {left right : Element} {operator : Comparison}
    {v : Bool} (h : comparisonOf lookup [left, .comparison operator, right] = .ok v) :
    ∃ l r, left = .operand l ∧ right = .operand r := by
  cases left with
  | operand l =>
    cases right with
    | operand r => exact ⟨l, r, rfl, rfl⟩
    | _ => cases h
  | _ => cases h

/-- Only a variable has a truth value by itself. -/
theorem variable_of_truthOf {lookup : Lookup} {e : Element} {v : Bool}
    (h : truthOf lookup [e] = .ok v) : ∃ name, e = .operand (.var name) := by
  cases e with
  | operand o =>
    cases o with
    | var name => exact ⟨name, rfl⟩
    | _ => cases h
  | _ => cases h

/-- An answer with a truth value is one where there is one. -/
theorem emitTruth_eq_token {f g : Folder} {truth : Except Fault Bool} {token : Token}
    (h : f.emitTruth truth = (.ok (some token), g)) :
    ∃ v, truth = .ok v ∧ token = .truth v ∧ g = { f with last := some (.truth v) } := by
  cases truth with
  | error x => cases h
  | ok v =>
    cases h
    exact ⟨v, rfl, rfl, rfl⟩

theorem step_of_afterTruth {lookup : Lookup} {f g : Folder} {e : Element} {rest : Condition}
    {token : Token} (hl : Ended f.last) (h : f.afterTruth e rest = (.ok (some token), g)) :
    Step lookup f.last (e :: rest) token g.rest ∧ g.last = some token := by
  simp only [afterTruth] at h
  split at h
  · cases h
    exact ⟨.connective hl _, rfl⟩
  · cases h
    exact ⟨.closing hl, rfl⟩
  · cases h

theorem step_of_afterNegation {lookup : Lookup} {f g : Folder} {e : Element} {rest : Condition}
    {token : Token} (hl : f.last = some .negation)
    (h : f.afterNegation lookup e rest = (.ok (some token), g)) :
    Step lookup f.last (e :: rest) token g.rest ∧ g.last = some token := by
  simp only [afterNegation] at h
  rw [hl]
  split at h
  · cases h
    exact ⟨.opening id, rfl⟩
  · obtain ⟨v, hv, rfl, rfl⟩ := emitTruth_eq_token h
    obtain ⟨w, hw, rfl⟩ := map_eq_ok_iff.mp hv
    exact ⟨.negatedVariable hw, rfl⟩
  · cases h

theorem step_of_atBeginning {lookup : Lookup} {f g : Folder} {e : Element} {rest : Condition}
    {token : Token} (hl : Begins f.last)
    (h : f.atBeginning lookup e rest = (.ok (some token), g)) :
    Step lookup f.last (e :: rest) token g.rest ∧ g.last = some token := by
  simp only [atBeginning] at h
  split at h
  · cases h
    exact ⟨.opening (not_ended_of_begins hl), rfl⟩
  · cases h
    exact ⟨.negation hl _, rfl⟩
  · split at h
    · obtain ⟨v, hv, rfl, rfl⟩ := emitTruth_eq_token h
      obtain ⟨l, r, rfl, rfl⟩ := operands_of_comparisonOf hv
      exact ⟨.comparison hl hv, rfl⟩
    · obtain ⟨v, hv, -, -⟩ := emitTruth_eq_token h
      cases hv
    · rename_i hmany hone
      obtain ⟨v, hv, rfl, rfl⟩ := emitTruth_eq_token h
      obtain ⟨name, rfl⟩ := variable_of_truthOf hv
      refine ⟨.single hl hv fun operator hc => ?_, rfl⟩
      obtain ⟨tail, ht⟩ : ∃ tail, rest = .comparison operator :: tail := by
        cases rest with
        | nil => cases hc
        | cons first tail => exact ⟨tail, by rw [Option.some.inj hc]⟩
      subst ht
      cases tail with
      | nil => exact hone operator rfl
      | cons right tail => exact hmany operator right tail rfl

/-- **A token is only answered where a step leads**, and is then the last one. -/
theorem step_of_next {lookup : Lookup} {f g : Folder} {token : Token}
    (h : f.next lookup = (.ok (some token), g)) :
    Step lookup f.last f.rest token g.rest ∧ g.last = some token := by
  cases hr : f.rest with
  | nil =>
    rw [next_of_nil lookup hr] at h
    simp only [atEnd, Prod.mk.injEq] at h
    split at h <;> cases h.1
  | cons e rest =>
    by_cases hl : Ended f.last
    · rw [next_of_ended hr hl] at h
      exact step_of_afterTruth hl h
    · rcases begins_or_negation hl with hb | hn
      · rw [next_of_begins hr hb] at h
        exact step_of_atBeginning hb h
      · rw [next_of_negation hr hn] at h
        exact step_of_afterNegation hn h

/-- **Where a step leads a token is answered**, and the folder is behind the step. -/
theorem exists_next_of_step {lookup : Lookup} {f : Folder} {token : Token} {c : Condition}
    (h : Step lookup f.last f.rest token c) :
    ∃ g, f.next lookup = (.ok (some token), g) ∧ g.rest = c ∧ g.last = some token := by
  obtain ⟨previous, rest, last⟩ := f
  cases h with
  | connective h operator =>
    rw [next_of_ended rfl h]
    exact ⟨_, rfl, rfl, rfl⟩
  | closing h =>
    rw [next_of_ended rfl h]
    exact ⟨_, rfl, rfl, rfl⟩
  | opening h =>
    rcases begins_or_negation h with hb | hn
    · rw [next_of_begins rfl hb]
      exact ⟨_, rfl, rfl, rfl⟩
    · rw [next_of_negation rfl hn]
      exact ⟨_, rfl, rfl, rfl⟩
  | negation h operator =>
    rw [next_of_begins rfl h]
    exact ⟨_, rfl, rfl, rfl⟩
  | comparison h hv =>
    rw [next_of_begins rfl h, atBeginning_compared lookup _ _ _ _ (decided_operand _)]
    simp only [pass, hv, emitTruth, emit]
    exact ⟨_, rfl, rfl, rfl⟩
  | single h hv hc =>
    rw [next_of_begins rfl h, atBeginning_alone lookup _ (decided_operand _) hc]
    simp only [hv, emitTruth, emit, pass]
    exact ⟨_, rfl, rfl, rfl⟩
  | negatedVariable hv =>
    rw [next_of_negation rfl rfl]
    simp only [afterNegation, pass, hv, Except.map, emitTruth, emit]
    exact ⟨_, rfl, rfl, rfl⟩

/-! ## 2. All tokens from a folder on -/

/-- The tokens from a folder on, up to the first fault, and the fault. -/
def tokens (lookup : Lookup) (f : Folder) : List Token × Option Fault :=
  f.takeTokens lookup (f.rest.length + 1)

/-- A token uses up an element. -/
theorem length_rest_lt {lookup : Lookup} {f g : Folder} {token : Token}
    (h : f.next lookup = (.ok (some token), g)) : g.rest.length < f.rest.length := by
  have hne : f.rest ≠ [] := by
    intro hr
    have hs := (step_of_next h).1
    generalize f.last = last at hs
    rw [hr] at hs
    cases hs
  have hlt := length_next_lt lookup hne
  rwa [h] at hlt

/-- More tokens than there are elements are never taken, so that a greater bound changes nothing. -/
theorem takeTokens_eq (lookup : Lookup) {f : Folder} {m n : Nat} (hm : f.rest.length < m)
    (hn : f.rest.length < n) : f.takeTokens lookup m = f.takeTokens lookup n := by
  induction m generalizing n f with
  | zero => exact absurd hm (Nat.not_lt_zero _)
  | succ m ih =>
    cases n with
    | zero => exact absurd hn (Nat.not_lt_zero _)
    | succ n =>
      simp only [takeTokens]
      split
      · rfl
      · rfl
      · rename_i token g h
        have hlt := length_rest_lt h
        rw [ih (by omega) (by omega : g.rest.length < n)]

/-- The tokens from a folder on, by its next answer. -/
theorem tokens_eq (lookup : Lookup) (f : Folder) :
    f.tokens lookup =
      match f.next lookup with
      | (.error x, _) => ([], some x)
      | (.ok none, _) => ([], none)
      | (.ok (some token), g) => (token :: (g.tokens lookup).1, (g.tokens lookup).2) := by
  rw [tokens, takeTokens]
  cases h : f.next lookup with
  | mk answer g =>
    match answer with
    | .error x => rfl
    | .ok none => rfl
    | .ok (some token) =>
      simp only [tokens, takeTokens_eq lookup (length_rest_lt h) (Nat.lt_succ_self _)]

theorem tokens_of_fault {lookup : Lookup} {f : Folder} {x : Fault}
    (h : (f.next lookup).1 = .error x) : f.tokens lookup = ([], some x) := by
  rw [tokens_eq]
  cases hn : f.next lookup with
  | mk answer g =>
    rw [hn] at h
    cases h
    rfl

/-- The tokens of a condition are those from its start on. -/
theorem tokens_start (lookup : Lookup) (c : Condition) :
    Condition.tokens lookup c = (start c).tokens lookup := rfl

/-! ## 3. Runs -/

/-- **Tokens answered one behind the other**: the last token and the elements before them, the
    tokens, the last token and the elements behind them. -/
inductive Run (lookup : Lookup) :
    Option Token → Condition → List Token → Option Token → Condition → Prop
  | nil (last : Option Token) (c : Condition) : Run lookup last c [] last c
  | cons {last last' : Option Token} {c d e : Condition} {token : Token} {tokens : List Token}
      (h : Step lookup last c token d) (hr : Run lookup (some token) d tokens last' e) :
      Run lookup last c (token :: tokens) last' e

theorem Run.append {lookup : Lookup} {last last' last'' : Option Token} {c d e : Condition}
    {tokens more : List Token} (h : Run lookup last c tokens last' d)
    (h' : Run lookup last' d more last'' e) : Run lookup last c (tokens ++ more) last'' e := by
  induction h with
  | nil => exact h'
  | cons hs _ ih => exact .cons hs (ih h')

/-- A run can be cut between any two tokens. -/
theorem Run.split {lookup : Lookup} {last last' : Option Token} {c d : Condition}
    {tokens more : List Token} (h : Run lookup last c (tokens ++ more) last' d) :
    ∃ m e, Run lookup last c tokens m e ∧ Run lookup m e more last' d := by
  induction tokens generalizing last c with
  | nil => exact ⟨last, c, .nil _ _, h⟩
  | cons token tokens ih =>
    cases h with
    | cons hs h =>
      obtain ⟨m, e, hr, hmore⟩ := ih h
      exact ⟨m, e, .cons hs hr, hmore⟩

/-- Behind a token there always is a last one. -/
theorem Run.last_ne_none {lookup : Lookup} {last last' : Option Token} {c d : Condition}
    {tokens : List Token} (h : Run lookup last c tokens last' d) (hl : last ≠ none) :
    last' ≠ none := by
  induction h with
  | nil => exact hl
  | cons _ _ ih => exact ih (Option.some_ne_none _)

/-- A run through elements, to a token that may be the last one, ends a value. -/
theorem Run.ended {lookup : Lookup} {last : Option Token} {c : Condition} {tokens : List Token}
    (h : Run lookup none c tokens last []) (hc : c ≠ []) (hend : MayEnd last) : Ended last := by
  refine hend.resolve_left fun hnone => ?_
  cases h with
  | nil => exact hc rfl
  | cons _ hr => exact hr.last_ne_none (Option.some_ne_none _) hnone

/-- At the end nothing is answered unless something has to follow the last token. -/
theorem atEnd_eq_ok_iff (f : Folder) : f.atEnd = .ok none ↔ MayEnd f.last := by
  simp only [atEnd, MayEnd]
  match f.last with
  | some (.junction _) | some .negation | some .opening =>
    simp only [reduceCtorEq, Ended, or_self]
  | none | some (.truth _) | some .closing =>
    simp only [reduceCtorEq, Ended, or_true, true_or]

/-- Nothing is only answered at the end. -/
theorem rest_eq_nil_of_next {lookup : Lookup} {f g : Folder} (h : f.next lookup = (.ok none, g)) :
    f.rest = [] ∧ MayEnd f.last := by
  have hemit : ∀ (g g' : Folder) (truth : Except Fault Bool),
      g.emitTruth truth ≠ (.ok none, g') := by
    intro g g' truth h
    cases truth <;> cases h
  simp only [next] at h
  split at h
  · rename_i hr
    exact ⟨hr, (atEnd_eq_ok_iff f).mp (congrArg Prod.fst h)⟩
  · exfalso
    split at h
    case h_3 =>
      simp only [afterNegation] at h
      split at h
      · cases h
      · exact hemit _ _ _ h
      · cases h
    case h_1 | h_2 =>
      simp only [afterTruth] at h
      split at h <;> cases h
    all_goals
      simp only [atBeginning] at h
      split at h
      · cases h
      · cases h
      · split at h <;> exact hemit _ _ _ h

/-! ## 4. Folders one behind the other -/

/-- **The folder behind some tokens**: a folder, the tokens it answers, the folder behind them. A
    run says as much of the elements and the last token; a folder also knows the element read
    last. -/
inductive Reaches (lookup : Lookup) : Folder → List Token → Folder → Prop
  | nil (f : Folder) : Reaches lookup f [] f
  | cons {f g k : Folder} {token : Token} {tokens : List Token}
      (h : f.next lookup = (.ok (some token), g)) (hr : Reaches lookup g tokens k) :
      Reaches lookup f (token :: tokens) k

theorem Reaches.append {lookup : Lookup} {f g k : Folder} {tokens more : List Token}
    (h : Reaches lookup f tokens g) (h' : Reaches lookup g more k) :
    Reaches lookup f (tokens ++ more) k := by
  induction h with
  | nil => exact h'
  | cons hn _ ih => exact .cons hn (ih h')

/-- The tokens from a folder on go on with those of a folder it reaches, and end in its fault. -/
theorem Reaches.tokens_eq {lookup : Lookup} {f g : Folder} {ts : List Token}
    (h : Reaches lookup f ts g) :
    f.tokens lookup = (ts ++ (g.tokens lookup).1, (g.tokens lookup).2) := by
  induction h with
  | nil => rfl
  | cons hn _ ih =>
    rw [Folder.tokens_eq, hn]
    simp only [ih, List.cons_append]

/-- Behind all its tokens a folder reaches one with none, which has the fault if there is one. -/
theorem exists_reaches {lookup : Lookup} {f : Folder} {ts : List Token} {fault : Option Fault}
    (h : f.tokens lookup = (ts, fault)) :
    ∃ g, Reaches lookup f ts g ∧ g.tokens lookup = ([], fault) := by
  induction ts generalizing f with
  | nil => exact ⟨f, .nil f, h⟩
  | cons token ts ih =>
    rw [tokens_eq] at h
    split at h
    · cases h
    · cases h
    · rename_i token' g hn
      obtain ⟨ht, hf⟩ := Prod.mk.inj h
      obtain ⟨rfl, rfl⟩ := List.cons.inj ht
      obtain ⟨k, hr, hk⟩ := ih (Prod.ext rfl hf : g.tokens lookup = (_, fault))
      exact ⟨k, .cons hn hr, hk⟩

theorem Reaches.run {lookup : Lookup} {f g : Folder} {ts : List Token}
    (h : Reaches lookup f ts g) : Run lookup f.last f.rest ts g.last g.rest := by
  induction h with
  | nil f => exact .nil _ _
  | cons hn _ ih =>
    obtain ⟨hs, hl⟩ := step_of_next hn
    rw [hl] at ih
    exact .cons hs ih

theorem exists_reaches_of_run {lookup : Lookup} {f : Folder} {ts : List Token}
    {last : Option Token} {c : Condition} (h : Run lookup f.last f.rest ts last c) :
    ∃ g, Reaches lookup f ts g ∧ g.rest = c ∧ g.last = last := by
  induction ts generalizing f with
  | nil =>
    generalize hl : f.last = last' at h
    generalize hc : f.rest = c' at h
    cases h
    exact ⟨f, .nil f, hc, hl⟩
  | cons token ts ih =>
    cases h with
    | cons hs h =>
      obtain ⟨g, hn, hg, hl⟩ := exists_next_of_step hs
      rw [← hg, ← hl] at h
      obtain ⟨k, hr, hk⟩ := ih h
      exact ⟨k, .cons hn hr, hk⟩

/-- A folder without tokens and without a fault is at the end. -/
theorem rest_eq_nil_of_tokens {lookup : Lookup} {f : Folder} (h : f.tokens lookup = ([], none)) :
    f.rest = [] ∧ MayEnd f.last := by
  rw [tokens_eq] at h
  split at h
  · cases h
  · rename_i g hn
    exact rest_eq_nil_of_next hn
  · cases h

theorem exists_run_of_tokens {lookup : Lookup} {f : Folder} {ts : List Token}
    (h : f.tokens lookup = (ts, none)) :
    ∃ last, Run lookup f.last f.rest ts last [] ∧ MayEnd last := by
  obtain ⟨g, hr, hg⟩ := exists_reaches h
  obtain ⟨hrest, hend⟩ := rest_eq_nil_of_tokens hg
  exact ⟨g.last, hrest ▸ hr.run, hend⟩

theorem tokens_of_run {lookup : Lookup} {f : Folder} {ts : List Token} {last : Option Token}
    (h : Run lookup f.last f.rest ts last []) (hend : MayEnd last) :
    f.tokens lookup = (ts, none) := by
  obtain ⟨g, hr, hrest, rfl⟩ := exists_reaches_of_run h
  rw [hr.tokens_eq, tokens_eq lookup g, next_of_nil lookup hrest, (atEnd_eq_ok_iff g).mpr hend,
    List.append_nil]

/-- **No fault**: the tokens are those of a run through all elements. -/
theorem tokens_eq_iff_run (lookup : Lookup) (f : Folder) (ts : List Token) :
    f.tokens lookup = (ts, none) ↔
      ∃ last, Run lookup f.last f.rest ts last [] ∧ MayEnd last := by
  constructor
  · exact exists_run_of_tokens
  · intro h
    obtain ⟨last, hr, hend⟩ := h
    exact tokens_of_run hr hend

end Folder

end Verdict
