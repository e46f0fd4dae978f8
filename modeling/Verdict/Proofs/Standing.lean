import Verdict.Proofs.FolderRuns

/-!
# What the tokens of a condition stand for

A folder reads a condition element by element, or three elements at once where they are a comparison.
This file says what comes out of a folding without a fault, and that nothing else does: the condition
falls into SEGMENTS, one for each token and in its order. A bracket, a connective or a negation is a
segment by itself and is the MARK that its token shows; a truth value stands for one variable or for
one comparison. And each token may follow the one before it.

* `exists_segment_of_step`, `step_of_standsFor` -- one token and its segment.
* `exists_segments_of_run`, `exists_run_of_segments` -- all tokens and theirs.
* `fold_eq_ok_iff_segments` -- **a condition folds into tokens exactly when they stand for it.**
-/

namespace Verdict

/-! ## 1. Marks and segments -/

/-- The token that an element is kept as; operands and comparisons are decided instead. -/
def Element.mark? : Element → Option Token
  | .bracket .opening => some .opening
  | .bracket .closing => some .closing
  | .connective operator => some (.junction operator.junction)
  | .negation _ => some .negation
  | .comparison _ | .operand _ => none

/-- Is the token a truth value? -/
def Token.isTruth : Token → Bool
  | .truth _ => true
  | _ => false

/-- **What a token stands for**: the token before it, the token, its segment. The variable behind a
    negation comes out inverted. -/
inductive StandsFor (lookup : Lookup) : Option Token → Token → Condition → Prop
  | mark {last : Option Token} {e : Element} {token : Token} (h : e.mark? = some token) :
      StandsFor lookup last token [e]
  | comparison {last : Option Token} {left right : Operand} {operator : Comparison} {v : Bool}
      (hl : last ≠ some .negation)
      (hv : comparisonOf lookup [.operand left, .comparison operator, .operand right] = .ok v) :
      StandsFor lookup last (.truth v) [.operand left, .comparison operator, .operand right]
  | single {last : Option Token} {name : String} {v : Bool} (hl : last ≠ some .negation)
      (hv : truthOf lookup [.operand (.var name)] = .ok v) :
      StandsFor lookup last (.truth v) [.operand (.var name)]
  | negatedVariable {name : String} {v : Bool}
      (hv : truthOf lookup [.operand (.var name)] = .ok v) :
      StandsFor lookup (some .negation) (.truth (!v)) [.operand (.var name)]

/-- Tokens that stand for segments, one for each and in order. -/
inductive Stand (lookup : Lookup) : Option Token → List Token → List Condition → Prop
  | nil (last : Option Token) : Stand lookup last [] []
  | cons {last : Option Token} {token : Token} {tokens : List Token} {segment : Condition}
      {segments : List Condition} (h : StandsFor lookup last token segment)
      (hs : Stand lookup (some token) tokens segments) :
      Stand lookup last (token :: tokens) (segment :: segments)

/-- **Which token may follow which.** Behind a truth value or a closing bracket: a junction or a
    closing bracket. At the start, behind a junction or an opening bracket: an opening bracket, a
    negation or a truth value. Behind a negation: an opening bracket or a truth value. -/
inductive MayFollow : Option Token → Token → Prop
  | value {last : Option Token} {token : Token} (h : Folder.Ended last)
      (ht : token = .closing ∨ ∃ j, token = .junction j) : MayFollow last token
  | beginning {last : Option Token} {token : Token} (h : Folder.Begins last)
      (ht : token = .opening ∨ token = .negation ∨ ∃ v, token = .truth v) : MayFollow last token
  | negation {token : Token} (ht : token = .opening ∨ ∃ v, token = .truth v) :
      MayFollow (some .negation) token

/-- A legal row of tokens: each may follow the one before it, and the last one ends a value. -/
def Legal (last : Option Token) : List Token → Prop
  | [] => Folder.MayEnd last
  | token :: tokens => MayFollow last token ∧ Legal (some token) tokens

variable {lookup : Lookup}

/-! ## 2. One token -/

theorem isTruth_of_mark? {e : Element} {token : Token} (h : e.mark? = some token) :
    token.isTruth = false := by
  cases e with
  | bracket b => cases b <;> cases h <;> rfl
  | connective operator => cases h; rfl
  | negation operator => cases h; rfl
  | comparison operator => cases h
  | operand o => cases h

/-- A segment keeps its mark, and nothing if it has been decided. -/
theorem StandsFor.marks {last : Option Token} {token : Token} {segment : Condition}
    (h : StandsFor lookup last token segment) :
    segment.filterMap Element.mark? = [token].filter (!·.isTruth) := by
  cases h with
  | mark h =>
    rw [List.filterMap_cons_some h, List.filter_cons_of_pos (by rw [isTruth_of_mark? h]; rfl)]
    rfl
  | comparison => rfl
  | single => rfl
  | negatedVariable => rfl

theorem StandsFor.ne_nil {last : Option Token} {token : Token} {segment : Condition}
    (h : StandsFor lookup last token segment) : segment ≠ [] := by
  cases h <;> exact List.cons_ne_nil _ _

/-- What a token stands for does not begin with a comparison, so that no variable before it could be
    a side of one. -/
theorem StandsFor.noComparison {last : Option Token} {token : Token} {segment : Condition}
    (h : StandsFor lookup last token segment) (rest : Condition) :
    Folder.NoComparison (segment ++ rest) := by
  cases h with
  | mark h => exact Folder.noComparison_cons fun operator he => by rw [he] at h; cases h
  | comparison => exact Folder.noComparison_cons nofun
  | single => exact Folder.noComparison_cons nofun
  | negatedVariable => exact Folder.noComparison_cons nofun

/-- **A step reads the segment of its token.** -/
theorem exists_segment_of_step {last : Option Token} {c d : Condition} {token : Token}
    (h : Folder.Step lookup last c token d) :
    ∃ segment, segment ++ d = c ∧ StandsFor lookup last token segment ∧ MayFollow last token := by
  cases h with
  | connective hl operator => exact ⟨[_], rfl, .mark rfl, .value hl (.inr ⟨_, rfl⟩)⟩
  | closing hl => exact ⟨[_], rfl, .mark rfl, .value hl (.inl rfl)⟩
  | opening hl =>
    refine ⟨[_], rfl, .mark rfl, ?_⟩
    rcases Folder.begins_or_negation hl with hb | rfl
    · exact .beginning hb (.inl rfl)
    · exact .negation (.inl rfl)
  | negation hl operator => exact ⟨[_], rfl, .mark rfl, .beginning hl (.inr (.inl rfl))⟩
  | comparison hl hv =>
    have hne : last ≠ some .negation := fun hn => Folder.not_begins_of_negation hn hl
    exact ⟨[_, _, _], rfl, .comparison hne hv, .beginning hl (.inr (.inr ⟨_, rfl⟩))⟩
  | single hl hv =>
    have hne : last ≠ some .negation := fun hn => Folder.not_begins_of_negation hn hl
    exact ⟨[_], rfl, .single hne hv, .beginning hl (.inr (.inr ⟨_, rfl⟩))⟩
  | negatedVariable hv => exact ⟨[_], rfl, .negatedVariable hv, .negation (.inr ⟨_, rfl⟩)⟩

/-- A token that needs a value before it may follow one, and no other token may. -/
theorem MayFollow.needsValue_iff {last : Option Token} {token : Token} (h : MayFollow last token) :
    Folder.NeedsValue token ↔ Folder.Ended last := by
  cases h with
  | value hl ht => rcases ht with rfl | ⟨j, rfl⟩ <;> exact ⟨fun _ => hl, fun _ => trivial⟩
  | beginning hl ht =>
    have hend := Folder.not_ended_of_begins hl
    rcases ht with rfl | rfl | ⟨v, rfl⟩ <;> exact ⟨False.elim, hend⟩
  | negation ht => rcases ht with rfl | ⟨v, rfl⟩ <;> exact ⟨False.elim, False.elim⟩

/-- A token that needs no value before it may stand where a condition begins, or behind a
    negation. -/
theorem MayFollow.begins {last : Option Token} {token : Token} (h : MayFollow last token)
    (ht : ¬ Folder.NeedsValue token) (hl : last = some .negation → token = .negation) :
    Folder.Begins last := by
  cases h with
  | value hend hv => exact absurd ((MayFollow.value hend hv).needsValue_iff.mpr hend) ht
  | beginning hb => exact hb
  | negation hn => rcases hn with rfl | ⟨v, rfl⟩ <;> cases hl rfl

/-- **A segment is read by a step**, if its token may stand there and no comparison comes behind. -/
theorem step_of_standsFor {last : Option Token} {token : Token} {segment rest : Condition}
    (h : StandsFor lookup last token segment) (hm : MayFollow last token)
    (hc : Folder.NoComparison rest) : Folder.Step lookup last (segment ++ rest) token rest := by
  cases h with
  | @mark _ e _ h =>
    cases e with
    | bracket b =>
      cases b with
      | opening =>
        cases h
        exact .opening (mt hm.needsValue_iff.mpr id)
      | closing =>
        cases h
        exact .closing (hm.needsValue_iff.mp trivial)
    | connective operator =>
      cases h
      exact .connective (hm.needsValue_iff.mp trivial) operator
    | negation operator =>
      cases h
      exact .negation (hm.begins id fun _ => rfl) operator
    | comparison operator => cases h
    | operand o => cases h
  | comparison hl hv => exact .comparison (hm.begins id fun hn => absurd hn hl) hv
  | single hl hv => exact .single (hm.begins id fun hn => absurd hn hl) hv hc
  | negatedVariable hv => exact .negatedVariable hv

/-! ## 3. All tokens -/

/-- Segments keep their marks. -/
theorem Stand.marks {last : Option Token} {tokens : List Token} {segments : List Condition}
    (h : Stand lookup last tokens segments) :
    segments.flatten.filterMap Element.mark? = tokens.filter (!·.isTruth) := by
  induction h with
  | nil => rfl
  | @cons _ token tokens segment segments h _ ih =>
    rw [List.flatten_cons, List.filterMap_append, h.marks, ih, ← List.filter_append,
      List.singleton_append]

/-- No token stands for nothing. -/
theorem Stand.eq_nil_iff {last : Option Token} {tokens : List Token} {segments : List Condition}
    (h : Stand lookup last tokens segments) : tokens = [] ↔ segments.flatten = [] := by
  cases h with
  | nil => exact ⟨fun _ => rfl, fun _ => rfl⟩
  | cons h _ =>
    refine ⟨nofun, fun hflat => ?_⟩
    exact absurd (List.append_eq_nil_iff.mp hflat).1 h.ne_nil

theorem Stand.noComparison {last : Option Token} {tokens : List Token} {segments : List Condition}
    (h : Stand lookup last tokens segments) : Folder.NoComparison segments.flatten := by
  cases h with
  | nil => exact nofun
  | cons h _ => exact h.noComparison _

/-- **The tokens of a run stand for its elements.** The induction is on the run; each step takes the
    segment of its token from the front. -/
theorem exists_segments_of_run {last last' : Option Token} {c d : Condition} {ts : List Token}
    (h : Folder.Run lookup last c ts last' d) (hend : Folder.MayEnd last') :
    (∃ segments, segments.flatten ++ d = c ∧ Stand lookup last ts segments) ∧ Legal last ts := by
  induction h with
  | nil last c => exact ⟨⟨[], rfl, .nil last⟩, hend⟩
  | cons hs _ ih =>
    obtain ⟨⟨segments, rfl, hstand⟩, hlegal⟩ := ih hend
    obtain ⟨segment, rfl, hfor, hmay⟩ := exists_segment_of_step hs
    refine ⟨⟨segment :: segments, ?_, .cons hfor hstand⟩, hmay, hlegal⟩
    rw [List.flatten_cons, List.append_assoc]

/-- **Legal tokens are those of a run through what they stand for.** -/
theorem exists_run_of_segments {last : Option Token} {ts : List Token} {segments : List Condition}
    (h : Stand lookup last ts segments) (hlegal : Legal last ts) :
    ∃ last', Folder.Run lookup last segments.flatten ts last' [] ∧ Folder.MayEnd last' := by
  induction h with
  | nil last => exact ⟨last, .nil last [], hlegal⟩
  | cons hfor hstand ih =>
    obtain ⟨last', hrun, hend⟩ := ih hlegal.2
    exact ⟨last', .cons (step_of_standsFor hfor hlegal.1 hstand.noComparison) hrun, hend⟩

/-! ## 4. Whole conditions -/

namespace Condition

theorem fold_eq_ok_iff {c : Condition} {ts : List Token} :
    c.fold lookup = .ok ts ↔ Condition.tokens lookup c = (ts, none) := by
  rw [fold]
  cases Condition.tokens lookup c with
  | mk tokens fault =>
    cases fault with
    | none => simp only [Except.ok.injEq, Prod.mk.injEq, and_true]
    | some x => simp only [reduceCtorEq, Prod.mk.injEq, and_false]

/-- **What a condition folds into.** The marks among the tokens are those of the condition, in order.
    The condition falls into segments, one for each token and in order; a truth value stands for one
    variable or one comparison of two operands. Without tokens there are no elements. Each token may
    follow the one before it, and the last one ends a value. And tokens of which all this holds are
    what the condition folds into. -/
theorem fold_eq_ok_iff_segments (lookup : Lookup) (c : Condition) (ts : List Token) :
    c.fold lookup = .ok ts ↔
      ts.filter (!·.isTruth) = c.filterMap Element.mark? ∧
      (∃ segments, segments.flatten = c ∧ Stand lookup none ts segments) ∧
      (ts = [] ↔ c = []) ∧ Legal none ts := by
  rw [fold_eq_ok_iff]
  constructor
  · intro h
    obtain ⟨last, hrun, hend⟩ := Folder.exists_run_of_tokens (f := Folder.start c) h
    obtain ⟨⟨segments, hflat, hstand⟩, hlegal⟩ := exists_segments_of_run hrun hend
    rw [List.append_nil] at hflat
    rw [← show segments.flatten = c from hflat]
    exact ⟨hstand.marks.symm, ⟨segments, rfl, hstand⟩, hstand.eq_nil_iff, hlegal⟩
  · intro h
    obtain ⟨-, ⟨segments, rfl, hstand⟩, -, hlegal⟩ := h
    obtain ⟨last, hrun, hend⟩ := exists_run_of_segments hstand hlegal
    exact Folder.tokens_of_run (f := Folder.start _) hrun hend

/-- A negated variable comes out inverted, behind the mark of its negation. -/
example : Condition.fold (Lookup.empty.bind "on" "true") [.negation .not, .operand (.var "on")]
    = .ok [.negation, .truth false] := rfl

end Condition

end Verdict
