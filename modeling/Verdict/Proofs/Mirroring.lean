import Verdict.Comparing

/-!
# Comparisons read from the other side

Some comparisons say the same the other way round: `a < b` says what `b > a` does, and `a <: b` what
`b isIn a` does. Of the default ones `mirrors` lists all such pairs. Their rules mirror one another:
one answers, or refuses, two values as the other does the values swapped.

From the rules the law goes over to comparisons of operands. A value is read by the operand beside it,
on whichever side that stands, and two variables are read alike; so the same two values are compared.
Only where neither of two variables has a value does the side matter, since the one on the left is
found undefined first.

* `mirrors_rule` -- the rules of a pair, on all values.
* `compareOperands_mirrored` -- operands under any two rules that mirror one another.
* `comparisonOf_mirrored` -- **so the default comparisons, each in both roles.**
-/

namespace Verdict

/-! ## 1. Rules -/

namespace Rule

/-- One rule answers two values as the other answers them swapped. -/
def Mirrors (rule other : Rule) : Prop := ∀ a b, rule a b = other b a

theorem Mirrors.symm {rule other : Rule} (h : rule.Mirrors other) : other.Mirrors rule :=
  fun a b => (h b a).symm

theorem equal_mirrors : equal.Mirrors equal := by
  intro a b
  cases a with
  | text s =>
    cases b with
    | text t => exact congrArg Except.ok (BEq.comm)
    | _ => rfl
  | number x =>
    cases b with
    | number y => exact congrArg Except.ok (x.sameAs_comm y)
    | _ => rfl
  | truth p =>
    cases b with
    | truth q => exact congrArg Except.ok (BEq.comm)
    | _ => rfl

theorem notEqual_mirrors : notEqual.Mirrors notEqual := by
  intro a b
  rw [notEqual, notEqual, equal_mirrors a b]

/-- Swapped values are in the swapped order. -/
theorem ordered_mirrors {accept accept' : Ordering → Bool} (h : ∀ o, accept o.swap = accept' o) :
    (ordered accept').Mirrors (ordered accept) := by
  intro a b
  cases a with
  | text s =>
    cases b with
    | text t =>
      have hswap : compare t s = (compare s t).swap := Std.OrientedCmp.eq_swap
      rw [ordered, ordered, hswap, h]
    | _ => rfl
  | number x =>
    cases b with
    | number y =>
      rw [ordered, ordered, Number.compare?_swap x y]
      cases x.compare? y with
      | none => rfl
      | some o => exact congrArg Except.ok (h o).symm
    | _ => rfl
  | truth p => cases b <;> rfl

theorem onTexts_mirrors (test : String → String → Bool) :
    (onTexts test).Mirrors (onTexts fun s t => test t s) := by
  intro a b
  cases a <;> cases b <;> rfl

end Rule

/-- The default comparisons that say the same from the other side. -/
def Comparison.mirrors : List (Comparison × Comparison) :=
  [(equal, equal), (notEqual, notEqual), (less, greater), (lessOrEqual, greaterOrEqual),
   (listHolds, isInList)]

/-- **The rules of a pair mirror one another.** -/
theorem mirrors_rule {pair : Comparison × Comparison} (h : pair ∈ Comparison.mirrors) :
    pair.1.rule.Mirrors pair.2.rule := by
  simp only [Comparison.mirrors, List.mem_cons, List.not_mem_nil, or_false] at h
  rcases h with rfl | rfl | rfl | rfl | rfl
  · exact Rule.equal_mirrors
  · exact Rule.notEqual_mirrors
  · exact Rule.ordered_mirrors fun o => by cases o <;> rfl
  · exact Rule.ordered_mirrors fun o => by cases o <;> rfl
  · exact Rule.onTexts_mirrors holdsItem

/-! ## 2. Operands -/

variable {lookup : Lookup}

/-- Two variables are read alike, whichever is named first. -/
theorem alike_swap (s t : String) : alike t s = (alike s t).swap := by
  unfold alike
  cases Number.read? s.toList <;> cases Number.read? t.toList <;>
    cases readTruthText? s <;> cases readTruthText? t <;> rfl

section Operands

variable {a b : Operand} {operator operator' : Comparison}

/-- A variable on the left of a literal. -/
theorem compareOperands_left (name : String) (operator : Comparison) (b : Operand) :
    compareOperands lookup (.var name) operator b
      = (lookup.resolve name).bind fun value => (coerce lookup value b).bind fun values =>
          operator.rule values.1 values.2 := by
  cases b <;> rfl

/-- A variable on the right of a literal: the values are handed over the other way round. -/
theorem compareOperands_right (h : ∀ name, a ≠ .var name) (operator : Comparison) (name : String) :
    compareOperands lookup a operator (.var name)
      = (lookup.resolve name).bind fun value => (coerce lookup value a).bind fun values =>
          operator.rule values.2 values.1 := by
  cases a with
  | var other => exact absurd rfl (h other)
  | _ => rfl

/-- A variable beside a literal is read as the literal is, on either side. -/
theorem compareOperands_literal (h : operator.rule.Mirrors operator'.rule) (name : String)
    (hb : ∀ other, b ≠ .var other) :
    compareOperands lookup (.var name) operator b
      = compareOperands lookup b operator' (.var name) := by
  have hrules : (fun values : Value × Value => operator.rule values.1 values.2)
      = fun values => operator'.rule values.2 values.1 := funext fun values => h _ _
  rw [compareOperands_left, compareOperands_right hb, hrules]

/-- Two variables with values: these are read alike. -/
theorem compareOperands_values {name other s t : String} (hs : lookup name = some s)
    (ht : lookup other = some t) (operator : Comparison) :
    compareOperands lookup (.var name) operator (.var other)
      = operator.rule (alike s t).1 (alike s t).2 := by
  rw [compareOperands_left, Lookup.resolve, hs]
  show Except.bind (coerce lookup s (.var other)) _ = _
  rw [coerce, Lookup.resolve, ht]
  rfl

/-- Two variables, of which one has a value: either both have one, or the same one is undefined. -/
theorem compareOperands_variables (h : operator.rule.Mirrors operator'.rule) {name other : String}
    (hdefined : lookup name ≠ none ∨ lookup other ≠ none) :
    compareOperands lookup (.var name) operator (.var other)
      = compareOperands lookup (.var other) operator' (.var name) := by
  cases hs : lookup name with
  | none =>
    cases ht : lookup other with
    | none => exact hdefined.elim (absurd hs) (absurd ht)
    | some t =>
      rw [compareOperands_left, compareOperands_left, Lookup.resolve, Lookup.resolve, hs, ht]
      show _ = Except.bind (coerce lookup t (.var name)) _
      rw [coerce, Lookup.resolve, hs]
      rfl
  | some s =>
    cases ht : lookup other with
    | none =>
      rw [compareOperands_left, compareOperands_left, Lookup.resolve, Lookup.resolve, hs, ht]
      show Except.bind (coerce lookup s (.var other)) _ = _
      rw [coerce, Lookup.resolve, ht]
      rfl
    | some t =>
      rw [compareOperands_values hs ht, compareOperands_values ht hs, alike_swap s t, h]
      rfl

/-- **Operands compared from either side**, under two rules that mirror one another. -/
theorem compareOperands_mirrored (h : operator.rule.Mirrors operator'.rule)
    (hvar : (∃ name, a = .var name) ∨ ∃ name, b = .var name)
    (hdefined : ∀ name other, a = .var name → b = .var other →
      lookup name ≠ none ∨ lookup other ≠ none) :
    compareOperands lookup a operator b = compareOperands lookup b operator' a := by
  by_cases ha : ∃ name, a = .var name
  · obtain ⟨name, rfl⟩ := ha
    by_cases hb : ∃ other, b = .var other
    · obtain ⟨other, rfl⟩ := hb
      exact compareOperands_variables h (hdefined name other rfl rfl)
    · exact compareOperands_literal h name (not_exists.mp hb)
  · obtain ⟨name, rfl⟩ := hvar.resolve_left ha
    exact (compareOperands_literal h.symm name (not_exists.mp ha)).symm

end Operands

/-! ## 3. The default comparisons -/

/-- **A comparison says the same from the other side.** For the default comparisons that are mirrors
    of one another, each in both roles: two operands, of which one at least is a variable, are
    compared with the same truth or the same fault after changing sides, unless both are variables
    without a value. -/
theorem comparisonOf_mirrored {pair : Comparison × Comparison} (h : pair ∈ Comparison.mirrors)
    {a b : Operand} (hvar : (∃ name, a = .var name) ∨ ∃ name, b = .var name)
    (hdefined : ∀ name other, a = .var name → b = .var other →
      lookup name ≠ none ∨ lookup other ≠ none) :
    comparisonOf lookup [.operand a, .comparison pair.1, .operand b]
        = comparisonOf lookup [.operand b, .comparison pair.2, .operand a] ∧
      comparisonOf lookup [.operand a, .comparison pair.2, .operand b]
        = comparisonOf lookup [.operand b, .comparison pair.1, .operand a] :=
  ⟨compareOperands_mirrored (mirrors_rule h) hvar hdefined,
    compareOperands_mirrored (mirrors_rule h).symm hvar hdefined⟩

/-- Two variables of which one has no value: both comparisons find that one undefined. -/
theorem comparisonOf_mirrored_undefined :
    let lookup := Lookup.empty.bind "ab" "10"
    let a := Element.operand (.var "ab")
    let b := Element.operand (.var "cd")
    (Comparison.less, Comparison.greater) ∈ Comparison.mirrors ∧
      comparisonOf lookup [a, .comparison .less, b] = .error (.undefinedVariable "cd") ∧
      comparisonOf lookup [b, .comparison .greater, a] = .error (.undefinedVariable "cd") := by
  intro lookup a b
  have hpair : (Comparison.less, Comparison.greater) ∈ Comparison.mirrors :=
    .tail _ (.tail _ (.head _))
  have hdefined : ∀ name other, Operand.var "ab" = .var name → Operand.var "cd" = .var other →
      lookup name ≠ none ∨ lookup other ≠ none := by
    intro name other hname _
    cases hname
    exact .inl (Option.some_ne_none "10")
  have hmirrored := comparisonOf_mirrored hpair (.inl ⟨"ab", rfl⟩) hdefined
  have hundefined : comparisonOf lookup [a, .comparison .less, b]
      = .error (.undefinedVariable "cd") := rfl
  exact ⟨hpair, hundefined, hmirrored.1.symm.trans hundefined⟩

/-- Without values the side shows: the variable on the left is found undefined first. -/
example :
    comparisonOf .empty [.operand (.var "ab"), .comparison .less, .operand (.var "cd")]
        = .error (.undefinedVariable "ab") ∧
      comparisonOf .empty [.operand (.var "cd"), .comparison .greater, .operand (.var "ab")]
        = .error (.undefinedVariable "cd") := ⟨rfl, rfl⟩

end Verdict
