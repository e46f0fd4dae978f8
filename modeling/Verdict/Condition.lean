import Verdict.Element

/-!
# Conditions

A condition is a sequence of elements, grammatical or not; whether it can be evaluated is found out
when it is. This file writes a condition as a text and lists the variables it speaks of.

In the text, elements are separated by one space, except behind what opens (an opening bracket, a
negation that is a symbol) and before a closing bracket, where they are GLUED so that the text reads
back: `!(a && b)`, not `! ( a && b )`.

* `mem_variableNames`: a variable is listed exactly when it is an element.
-/

namespace Verdict

/-- A sequence of elements. -/
abbrev Condition := List Element

/-! ## 1. Gluing -/

/-- An element that the next one is glued to: an opening bracket, or a negation by a symbol. -/
def Element.isOpening : Element → Bool
  | bracket .opening => true
  | negation operator => !operator.name.isKeyword
  | _ => false

/-- Something that a closing bracket is glued to. -/
def Element.isClosable : Element → Bool
  | operand _ => true
  | bracket .closing => true
  | _ => false

/-- Is `next` written without a space behind `previous`? -/
def glued (previous next : Element) : Bool :=
  match next with
  | .bracket .closing => previous.isOpening || previous.isClosable
  | .operand _ => previous.isOpening
  | other => previous.isOpening && other.isOpening

namespace Condition

/-! ## 2. The text -/

/-- The text of the elements behind `previous`. -/
def charsAfter (previous : Element) : Condition → List Char
  | [] => []
  | e :: es => (if glued previous e then e.chars else ' ' :: e.chars) ++ charsAfter e es

/-- The characters of a condition. -/
def chars : Condition → List Char
  | [] => []
  | e :: es => e.chars ++ charsAfter e es

/-- The text of a condition. -/
def render (c : Condition) : String := String.ofList c.chars

/-! ## 3. Variables -/

/-- The name of the variable an element is, if it is one. -/
def nameOfVariable? : Element → Option String
  | .operand (.var name) => some name
  | _ => none

/-- A list in order with a name put in its place, unless it is there. -/
def insertName (name : String) : List String → List String
  | [] => [name]
  | other :: names =>
    if name = other then other :: names
    else if name < other then name :: other :: names
    else other :: insertName name names

/-- The names of the variables, each once, in order. -/
def variableNames (c : Condition) : List String := (c.filterMap nameOfVariable?).foldr insertName []

theorem mem_insertName {name other : String} {names : List String} :
    other ∈ insertName name names ↔ other = name ∨ other ∈ names := by
  induction names with
  | nil => simp only [insertName, List.mem_singleton, List.not_mem_nil, or_false]
  | cons first names ih =>
    simp only [insertName]
    split
    · rename_i h
      simp only [h, List.mem_cons]
      exact ⟨.inr, fun h => h.elim .inl id⟩
    · split
      · simp only [List.mem_cons]
      · simp only [List.mem_cons, ih]
        exact or_left_comm

/-- A variable is listed exactly when it is an element. -/
theorem mem_variableNames {name : String} {c : Condition} :
    name ∈ variableNames c ↔ Element.operand (.var name) ∈ c := by
  induction c with
  | nil => simp only [variableNames, List.filterMap_nil, List.foldr_nil, List.not_mem_nil]
  | cons e es ih =>
    simp only [variableNames] at ih ⊢
    cases h : nameOfVariable? e with
    | none =>
      have hne : Element.operand (.var name) ≠ e := by
        rintro rfl; simp only [nameOfVariable?, reduceCtorEq] at h
      simp only [List.filterMap_cons, h, ih, List.mem_cons, hne, false_or]
    | some other =>
      have he : e = .operand (.var other) := by
        cases e with
        | operand o => cases o <;> simp_all only [nameOfVariable?, Option.some.injEq, reduceCtorEq]
        | _ => simp only [nameOfVariable?, reduceCtorEq] at h
      subst he
      simp only [List.filterMap_cons, nameOfVariable?, List.foldr_cons, mem_insertName, ih,
        List.mem_cons, Element.operand.injEq, Operand.var.injEq]

/-! ## 4. Sameness -/

/-- Have the conditions the same elements in the same order? -/
def sameAs : Condition → Condition → Bool
  | [], [] => true
  | a :: as, b :: bs => a.sameAs b && sameAs as bs
  | _, _ => false

end Condition

end Verdict
