import Mathlib.Data.List.SplitBy
import Verdict.Condition
import Verdict.Proofs.Reading

/-!
# How a condition is written

The text of a condition is a sequence of GROUPS with a space between any two of them: the longest
runs of elements of which each is glued to the one before it (`c.splitBy glued`). An operator by
itself is one group. Any other group is a run of opening elements, an operand or none, and closing
brackets: behind an opening element the group goes on with whatever may follow one, behind an
operand or a closing bracket with closing brackets only.

* `Group` -- a run of elements written without a space.
* `exists_group` -- a condition begins with a group.
* `chars_append` -- what is behind a group is written behind a space.
* `splitBy_append_of_apart` -- the groups are found one by one.
-/

namespace Verdict

/-! ## 1. Three kinds of elements -/

namespace Element

/-- An operator that is written by itself: a comparison, a connective, a negation by a word. -/
def standsAlone : Element → Bool
  | comparison _ => true
  | connective _ => true
  | negation operator => operator.name.isKeyword
  | _ => false

theorem opening_or_closable_or_alone (e : Element) :
    e.isOpening = true ∨ e.isClosable = true ∨ e.standsAlone = true := by
  cases e with
  | comparison operator => exact .inr (.inr rfl)
  | connective operator => exact .inr (.inr rfl)
  | negation operator =>
    cases hk : operator.name.isKeyword with
    | true => exact .inr (.inr hk)
    | false => exact .inl (by rw [isOpening, hk]; rfl)
  | bracket b => cases b with
    | opening => exact .inl rfl
    | closing => exact .inr (.inl rfl)
  | operand o => exact .inr (.inl rfl)

theorem isOpening_of_isClosable {e : Element} (h : e.isClosable = true) : e.isOpening = false := by
  cases e with
  | bracket b => cases b with
    | opening => cases h
    | closing => rfl
  | operand o => rfl
  | _ => cases h

theorem isOpening_of_standsAlone {e : Element} (h : e.standsAlone = true) :
    e.isOpening = false := by
  cases e with
  | negation operator =>
    have hk : operator.name.isKeyword = true := h
    rw [isOpening, hk]
    rfl
  | comparison operator => rfl
  | connective operator => rfl
  | _ => cases h

theorem isClosable_of_standsAlone {e : Element} (h : e.standsAlone = true) :
    e.isClosable = false := by
  cases e with
  | negation operator => rfl
  | comparison operator => rfl
  | connective operator => rfl
  | _ => cases h

end Element

/-! ## 2. Groups -/

/-- Opening elements, an operand or none, and closing brackets. -/
structure Group where
  lead : Condition
  operand : Option Operand
  closing : Nat
  lead_opening : ∀ e ∈ lead, e.isOpening = true

/-- An element of one character, some times over. -/
theorem flatMap_replicate {e : Element} {c : Char} (h : e.chars = [c]) (n : Nat) :
    (List.replicate n e).flatMap Element.chars = List.replicate n c := by
  induction n with
  | zero => rfl
  | succ n ih =>
    rw [List.replicate_succ, List.flatMap_cons, ih, h]
    rfl

namespace Group

/-- The operand of a group, as an element or none. -/
def body (g : Group) : Condition := (g.operand.map Element.operand).toList

/-- The elements of a group. -/
def elements (g : Group) : Condition :=
  g.lead ++ (g.body ++ List.replicate g.closing (.bracket .closing))

/-- The characters of a group. -/
def chars (g : Group) : List Char :=
  g.lead.flatMap Element.chars ++ (g.body.flatMap Element.chars ++ List.replicate g.closing ')')

/-- A group is written without a space. -/
theorem chars_eq_flatMap (g : Group) : g.chars = g.elements.flatMap Element.chars := by
  rw [chars, elements, List.flatMap_append, List.flatMap_append, flatMap_replicate (c := ')') rfl]

theorem mem_elements {g : Group} {o : Operand} (h : g.operand = some o) :
    .operand o ∈ g.elements := by
  refine List.mem_append_right _ (List.mem_append_left _ ?_)
  rw [body, h]
  exact List.mem_cons_self

/-- The group with one more opening element in front. -/
def cons (g : Group) (e : Element) (h : e.isOpening = true) : Group :=
  ⟨e :: g.lead, g.operand, g.closing, List.forall_mem_cons.mpr ⟨h, g.lead_opening⟩⟩

end Group

/-! ## 3. Glue -/

namespace Condition

theorem charsAfter_of_glued {previous e : Element} (h : glued previous e = true) (es : Condition) :
    charsAfter previous (e :: es) = e.chars ++ charsAfter e es := by
  rw [charsAfter, if_pos h]

theorem glued_closing (previous : Element) :
    glued previous (.bracket .closing) = (previous.isOpening || previous.isClosable) := rfl

theorem not_glued_of_alone (previous : Element) {e : Element} (h : e.standsAlone = true) :
    glued previous e = false := by
  unfold glued
  split
  · cases h
  · cases h
  · rw [Element.isOpening_of_standsAlone h, Bool.and_false]

theorem not_glued_behind_alone {previous : Element} (h : previous.standsAlone = true)
    (e : Element) : glued previous e = false := by
  have hopening := Element.isOpening_of_standsAlone h
  unfold glued
  split
  · rw [hopening, Element.isClosable_of_standsAlone h, Bool.or_self]
  · exact hopening
  · rw [hopening, Bool.false_and]

theorem glued_of_opening {previous e : Element} (h : previous.isOpening = true)
    (he : e.isOpening = true) : glued previous e = true := by
  unfold glued
  split
  · cases he
  · cases he
  · rw [h, he, Bool.and_self]

theorem glued_of_closable {previous e : Element} (h : previous.isOpening = true)
    (he : e.isClosable = true) : glued previous e = true := by
  cases e with
  | operand o => exact h
  | bracket b => cases b with
    | opening => cases he
    | closing => rw [glued_closing, h, Bool.true_or]
  | _ => cases he

/-- Behind an operand or a closing bracket nothing is glued but a closing bracket. -/
theorem not_glued_of_isClosable {previous e : Element} (h : previous.isClosable = true)
    (he : e ≠ .bracket .closing) : glued previous e = false := by
  have hopening := Element.isOpening_of_isClosable h
  unfold glued
  split
  · exact absurd rfl he
  · exact hopening
  · rw [hopening, Bool.false_and]

/-- Elements of which each is glued to the one before it. -/
def Chained (es : Condition) : Prop := es.IsChain fun a b => glued a b = true

/-- The end of the first elements is not glued to the others. -/
def Apart (front rest : Condition) : Prop :=
  ∀ a ∈ front.getLast?, ∀ b ∈ rest.head?, glued a b = false

theorem apart_of_standsAlone {e : Element} (h : e.standsAlone = true) (rest : Condition) :
    Apart [e] rest := by
  intro a ha b _
  cases ha
  exact not_glued_behind_alone h b

theorem chained_closings {e : Element} (h : e.isClosable = true) (n : Nat) :
    Chained (e :: List.replicate n (.bracket .closing)) := by
  induction n generalizing e with
  | zero => exact List.isChain_singleton e
  | succ n ih =>
    have hglued : glued e (.bracket .closing) = true := by rw [glued_closing, h, Bool.or_true]
    exact List.isChain_cons_cons.mpr ⟨hglued, ih rfl⟩

end Condition

/-- **The elements of a group are glued to one another.** -/
theorem Group.chained (g : Group) : Condition.Chained g.elements := by
  have hbehind : Condition.Chained (g.body ++ List.replicate g.closing (.bracket .closing)) ∧
      ∀ e ∈ (g.body ++ List.replicate g.closing (Element.bracket .closing)).head?,
        e.isClosable = true := by
    rw [Group.body]
    cases g.operand with
    | some o =>
      have hoperand : (Element.operand o).isClosable = true := rfl
      refine ⟨Condition.chained_closings hoperand _, fun e he => ?_⟩
      cases he
      rfl
    | none =>
      cases g.closing with
      | zero => exact ⟨List.isChain_nil, nofun⟩
      | succ n =>
        have hclosing : (Element.bracket .closing).isClosable = true := rfl
        refine ⟨Condition.chained_closings hclosing n, fun e he => ?_⟩
        cases he
        rfl
  have hlead : Condition.Chained g.lead :=
    (List.pairwise_of_forall_mem_list fun a ha b hb =>
      Condition.glued_of_opening (g.lead_opening a ha) (g.lead_opening b hb)).isChain
  refine List.isChain_append.mpr ⟨hlead, hbehind.1, fun a ha b hb => ?_⟩
  exact Condition.glued_of_closable (g.lead_opening a (List.mem_of_getLast? ha)) (hbehind.2 b hb)

/-! ## 4. Groups and spaces -/

namespace Condition

/-- The text behind a group: nothing, or a space and the text of what follows. -/
def spaced : Condition → List Char
  | [] => []
  | e :: es => ' ' :: chars (e :: es)

theorem atGap_spaced (es : Condition) : AtGap (spaced es) := by
  cases es with
  | nil => exact atGap_nil
  | cons e es => exact atGap_cons.mpr (by decide)

/-- What is glued is written without a space, and what is not is written behind one. -/
theorem charsAfter_append {previous : Element} {front rest : Condition}
    (hfront : Chained (previous :: front)) (hrest : Apart (previous :: front) rest) :
    charsAfter previous (front ++ rest) = front.flatMap Element.chars ++ spaced rest := by
  induction front generalizing previous with
  | nil =>
    cases rest with
    | nil => rfl
    | cons e es =>
      have hnot : glued previous e = false := hrest previous rfl e rfl
      rw [List.nil_append, charsAfter, hnot]
      rfl
  | cons e front ih =>
    obtain ⟨hglued, hfront⟩ := List.isChain_cons_cons.mp hfront
    have hlast : Apart (e :: front) rest := fun a ha => hrest a (by rwa [List.getLast?_cons_cons])
    rw [List.cons_append, charsAfter_of_glued hglued, ih hfront hlast, List.flatMap_cons,
      List.append_assoc]

/-- **What is behind a group is written behind a space.** -/
theorem chars_append {front rest : Condition} (hne : front ≠ []) (hfront : Chained front)
    (hrest : Apart front rest) :
    chars (front ++ rest) = front.flatMap Element.chars ++ spaced rest := by
  cases front with
  | nil => exact absurd rfl hne
  | cons e front =>
    rw [List.cons_append, chars, charsAfter_append hfront hrest, List.flatMap_cons,
      List.append_assoc]

/-- **The groups of a condition** are its first one and those of what is behind it. -/
theorem splitBy_append_of_apart {front rest : Condition} (hne : front ≠ [])
    (hfront : Chained front) (hrest : Apart front rest) :
    (front ++ rest).splitBy glued = front :: rest.splitBy glued := by
  rw [List.splitBy_append hrest, List.splitBy_of_isChain hne hfront]
  rfl

/-- The closing brackets at the front. -/
theorem exists_closings (es : Condition) : ∃ n rest,
    es = List.replicate n (.bracket .closing) ++ rest ∧
      ∀ e ∈ rest.head?, e ≠ Element.bracket .closing := by
  induction es with
  | nil => exact ⟨0, [], rfl, nofun⟩
  | cons e es ih =>
    by_cases he : e = .bracket .closing
    · obtain ⟨n, rest, hes, hrest⟩ := ih
      exact ⟨n + 1, rest, by rw [he, hes]; rfl, hrest⟩
    · exact ⟨0, e :: es, rfl, fun d hd => Option.some.inj hd ▸ he⟩

theorem apart_closings {e : Element} (h : e.isClosable = true) (n : Nat) {rest : Condition}
    (hrest : ∀ d ∈ rest.head?, d ≠ .bracket .closing) :
    Apart (e :: List.replicate n (.bracket .closing)) rest := by
  have hall : ∀ a ∈ e :: List.replicate n (.bracket .closing), a.isClosable = true := by
    intro a ha
    rcases List.mem_cons.mp ha with rfl | ha
    · exact h
    · rw [List.eq_of_mem_replicate ha]
      rfl
  exact fun a ha b hb => not_glued_of_isClosable (hall a (List.mem_of_getLast? ha)) (hrest b hb)

/-- An operand or a closing bracket begins a group that has no lead. -/
theorem group_of_isClosable {e : Element} (h : e.isClosable = true) (es : Condition) :
    ∃ (g : Group) (rest : Condition), g.elements ≠ [] ∧ e :: es = g.elements ++ rest ∧
      Apart g.elements rest := by
  obtain ⟨n, rest, rfl, hrest⟩ := exists_closings es
  have hapart := apart_closings h n hrest
  cases e with
  | operand o => exact ⟨⟨[], some o, n, nofun⟩, rest, List.cons_ne_nil _ _, rfl, hapart⟩
  | bracket b => cases b with
    | opening => cases h
    | closing => exact ⟨⟨[], none, n + 1, nofun⟩, rest, List.cons_ne_nil _ _, rfl, hapart⟩
  | _ => cases h

/-- Behind an opening element the group goes on. -/
theorem group_of_isOpening {previous : Element} (h : previous.isOpening = true) (es : Condition) :
    ∃ (g : Group) (rest : Condition), es = g.elements ++ rest ∧
      Apart (previous :: g.elements) rest := by
  induction es generalizing previous with
  | nil => exact ⟨⟨[], none, 0, nofun⟩, [], rfl, nofun⟩
  | cons e es ih =>
    rcases e.opening_or_closable_or_alone with hopening | hclosable | halone
    · obtain ⟨g, rest, rfl, hapart⟩ := ih hopening
      refine ⟨g.cons e hopening, rest, rfl, fun a ha => hapart a ?_⟩
      change a ∈ (previous :: e :: g.elements).getLast? at ha
      rwa [List.getLast?_cons_cons] at ha
    · obtain ⟨g, rest, hne, hes, hapart⟩ := group_of_isClosable hclosable es
      refine ⟨g, rest, hes, fun a ha => hapart a ?_⟩
      rwa [List.getLast?_cons_of_ne_nil hne] at ha
    · refine ⟨⟨[], none, 0, nofun⟩, e :: es, rfl, fun a _ b hb => ?_⟩
      cases hb
      exact not_glued_of_alone a halone

/-- **A condition begins with a group.** -/
theorem exists_group (e : Element) (es : Condition) :
    e.standsAlone = true ∨ ∃ (g : Group) (rest : Condition), g.elements ≠ [] ∧
      e :: es = g.elements ++ rest ∧ Apart g.elements rest := by
  rcases e.opening_or_closable_or_alone with hopening | hclosable | halone
  · right
    obtain ⟨g, rest, rfl, hapart⟩ := group_of_isOpening hopening es
    exact ⟨g.cons e hopening, rest, List.cons_ne_nil _ _, rfl, hapart⟩
  · right
    exact group_of_isClosable hclosable es
  · left
    exact halone

/-- The elements of a condition that are glued to its first one. -/
theorem exists_front (e : Element) (es : Condition) :
    ∃ front rest, front ≠ [] ∧ Chained front ∧ e :: es = front ++ rest ∧ Apart front rest := by
  rcases exists_group e es with halone | ⟨g, rest, hne, hes, hapart⟩
  · exact ⟨[e], es, List.cons_ne_nil e [], List.isChain_singleton e, rfl,
      apart_of_standsAlone halone es⟩
  · exact ⟨g.elements, rest, hne, g.chained, hes, hapart⟩

end Condition

end Verdict
