import Verdict.Operator.Basic

/-!
# Registries of operators

A registry holds the operators that a source text may use, each set on its own: one name may stand
for a comparison, a connective and a negation at the same time. A set is kept in the order of the
names. Registering an operator takes the place of the one with its name; a registry is a value, so
that elements already read keep the operators they were read with.

* `find?_insert`, `find?_erase`: what a set answers after a change, for every name.
* `default_eq`: the sets of the default registry, in the order of the names.
-/

namespace Verdict

/-! ## 1. One set -/

namespace OperatorSet

variable {α : Type} [Named α]

/-- The text an operator is known by. -/
def nameOf (operator : α) : String := (Named.name operator).text

/-- The operator with a name. -/
def find? (name : String) (set : List α) : Option α := set.find? (nameOf · == name)

/-- The set with an operator, which takes the place of the one with its name. -/
def insert (operator : α) : List α → List α
  | [] => [operator]
  | other :: set =>
    if nameOf other = nameOf operator then operator :: set
    else if nameOf operator < nameOf other then operator :: other :: set
    else other :: insert operator set

/-- The set without the operator of a name. -/
def erase (name : String) (set : List α) : List α := set.filter (nameOf · != name)

theorem find?_cons (name : String) (operator : α) (set : List α) :
    find? name (operator :: set)
      = if nameOf operator = name then some operator else find? name set := by
  by_cases h : nameOf operator = name
  · simp only [find?, List.find?_cons, h, beq_self_eq_true, ↓reduceIte]
  · have hb : (nameOf operator == name) = false := beq_eq_false_iff_ne.mpr h
    simp only [find?, List.find?_cons, hb, h, ↓reduceIte]

theorem find?_insert (name : String) (operator : α) (set : List α) :
    find? name (insert operator set)
      = if nameOf operator = name then some operator else find? name set := by
  induction set with
  | nil => exact find?_cons name operator []
  | cons other set ih =>
    simp only [insert]
    split
    · rename_i he
      by_cases h : nameOf operator = name
      · simp only [find?_cons, h, ↓reduceIte]
      · simp only [find?_cons, he, h, ↓reduceIte]
    · rename_i he
      split
      · simp only [find?_cons]
      · by_cases ho : nameOf other = name
        · have h : ¬ nameOf operator = name := fun h => he (ho.trans h.symm)
          simp only [find?_cons, ho, h, ↓reduceIte]
        · simp only [find?_cons, ho, ↓reduceIte, ih]

theorem find?_erase (name removed : String) (set : List α) :
    find? name (erase removed set) = if removed = name then none else find? name set := by
  induction set with
  | nil => simp only [erase, find?, List.filter_nil, List.find?_nil, ite_self]
  | cons other set ih =>
    by_cases ho : nameOf other = removed
    · have he : erase removed (other :: set) = erase removed set := by
        simp only [erase, List.filter_cons, ho, bne_self_eq_false, Bool.false_eq_true, ↓reduceIte]
      rw [he, ih, find?_cons, ho]
      by_cases h : removed = name <;> simp only [h, ↓reduceIte]
    · have hb : (nameOf other != removed) = true := by simpa only [bne_iff_ne, ne_eq] using ho
      have he : erase removed (other :: set) = other :: erase removed set := by
        simp only [erase, List.filter_cons, hb, ↓reduceIte]
      rw [he, find?_cons, ih, find?_cons]
      by_cases hn : nameOf other = name
      · have h : ¬ removed = name := fun h => ho (hn.trans h.symm)
        simp only [hn, h, ↓reduceIte]
      · simp only [hn, ↓reduceIte]

theorem mem_of_find? {name : String} {set : List α} {operator : α}
    (h : find? name set = some operator) :
    operator ∈ set ∧ nameOf operator = name := by
  have hname := List.find?_some (p := (nameOf · == name)) h
  exact ⟨List.mem_of_find?_eq_some h, beq_iff_eq.mp hname⟩

/-- A name that no operator of a set has is not found there. -/
theorem find?_eq_none_of_ne {name : OperatorName} {set : List α}
    (h : ∀ operator ∈ set, Named.name operator ≠ name) :
    find? name.text set = none := by
  refine List.find?_eq_none.mpr fun operator hm he => ?_
  exact h operator hm (OperatorName.eq_of_text (beq_iff_eq.mp he))

end OperatorSet

/-! ## 2. Registries -/

/-- The operators that a source text may use. -/
structure Registry where
  comparisons : List Comparison
  connectives : List Connective
  negations : List Negation

namespace Registry

/-- The registry without operators. -/
def empty : Registry := ⟨[], [], []⟩

def addComparison (r : Registry) (operator : Comparison) : Registry :=
  { r with comparisons := OperatorSet.insert operator r.comparisons }

def addConnective (r : Registry) (operator : Connective) : Registry :=
  { r with connectives := OperatorSet.insert operator r.connectives }

def addNegation (r : Registry) (operator : Negation) : Registry :=
  { r with negations := OperatorSet.insert operator r.negations }

def removeComparison (r : Registry) (name : String) : Registry :=
  { r with comparisons := OperatorSet.erase name r.comparisons }

def removeConnective (r : Registry) (name : String) : Registry :=
  { r with connectives := OperatorSet.erase name r.connectives }

def removeNegation (r : Registry) (name : String) : Registry :=
  { r with negations := OperatorSet.erase name r.negations }

def comparison? (r : Registry) (name : String) : Option Comparison :=
  OperatorSet.find? name r.comparisons

def connective? (r : Registry) (name : String) : Option Connective :=
  OperatorSet.find? name r.connectives

def negation? (r : Registry) (name : String) : Option Negation :=
  OperatorSet.find? name r.negations

/-- The registry of the default grammar. -/
def default [RegexLibrary] : Registry :=
  let connectives := Connective.defaults.foldl addConnective empty
  let negations := Negation.defaults.foldl addNegation connectives
  Comparison.defaults.foldl addComparison negations

instance [RegexLibrary] : Inhabited Registry := ⟨default⟩

/-- The names of all operators, set by set. -/
def names (r : Registry) : List OperatorName :=
  r.comparisons.map (·.name) ++ r.connectives.map (·.name) ++ r.negations.map (·.name)

/-- The sets of the default registry. -/
theorem default_eq [RegexLibrary] : default =
    ⟨[.notEqual, .less, .listHolds, .lessOrEqual, .equal, .greater, .greaterOrEqual, .contains,
      .startsWith, .endsWith, .isInList, .matchesPattern], [.and, .or], [.not]⟩ := by
  simp only [default, Comparison.defaults, Connective.defaults, Negation.defaults, empty,
    addComparison, addConnective, addNegation, OperatorSet.insert, OperatorSet.nameOf,
    Named.name, Comparison.equal, Comparison.notEqual, Comparison.greater,
    Comparison.greaterOrEqual, Comparison.less, Comparison.lessOrEqual, Comparison.listHolds,
    Comparison.isInList, Comparison.contains, Comparison.startsWith, Comparison.endsWith,
    Comparison.matchesName, Comparison.matchesPattern, Connective.and, Connective.or,
    Negation.not, List.foldl_cons, List.foldl_nil, String.reduceEq, String.reduceLT, ↓reduceIte]

/-- The names of the default comparisons. -/
def comparisonNames : List OperatorName :=
  [Comparison.notEqual, Comparison.less, Comparison.listHolds, Comparison.lessOrEqual,
    Comparison.equal, Comparison.greater, Comparison.greaterOrEqual, Comparison.contains,
    Comparison.startsWith, Comparison.endsWith, Comparison.isInList].map (·.name) ++
  [Comparison.matchesName]

/-- The names of the default operators. -/
def defaultNames : List OperatorName :=
  comparisonNames ++ [Connective.and.name, Connective.or.name] ++ [Negation.not.name]

/-- The names do not depend on the library. -/
theorem names_comparisons [RegexLibrary] : default.comparisons.map (·.name) = comparisonNames := by
  rw [default_eq]
  rfl

theorem names_default [RegexLibrary] : default.names = defaultNames := by
  rw [default_eq]
  rfl

theorem negations_default [RegexLibrary] : default.negations = [.not] := by rw [default_eq]

/-- Do the registries hold the same operators? Comparisons count by their names alone. -/
def sameAs (r s : Registry) : Bool :=
  r.comparisons.map (·.name) == s.comparisons.map (·.name) &&
    r.connectives == s.connectives && r.negations == s.negations

end Registry

end Verdict
