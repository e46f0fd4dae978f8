import Mathlib.Computability.Language
import Verdict.Regex.Expr

/-!
# The languages of expressions

Where an expression captures nothing and looks at nothing but the characters it takes, all the ways in
which it matches are told by its LANGUAGE, the texts it takes (`Expr.Denotes`). The order of the ways
is then no matter wherever what follows can come behind one of them only.

* `Denotes.seq`, `Denotes.choice`, `Denotes.many` -- the language of an expression, from the languages
  of its parts.
* `denotes_word` -- the language of an expression for one text.
-/

namespace Verdict

open Regex (Match)
open scoped Computability

/-! ## 1. Characters -/

/-- The texts of some kind. -/
def texts (p : List Char → Prop) : Language Char := {w | p w}

theorem mem_texts {p : List Char → Prop} {w : List Char} : w ∈ texts p ↔ p w := Iff.rfl

/-- The texts of one character of a class. -/
def CharClass.language (cls : CharClass) : Language Char := {w | ∃ c, cls.holds c = true ∧ w = [c]}

theorem CharClass.mem_language {cls : CharClass} {w : List Char} :
    w ∈ cls.language ↔ ∃ c, cls.holds c = true ∧ w = [c] := Iff.rfl

theorem CharClass.mem_kstar {cls : CharClass} {w : List Char} :
    w ∈ cls.language∗ ↔ ∀ c ∈ w, cls.holds c = true := by
  rw [Language.mem_kstar]
  constructor
  · rintro ⟨ws, rfl, hws⟩ c hc
    obtain ⟨u, hu, hcu⟩ := List.mem_flatten.mp hc
    obtain ⟨d, hd, rfl⟩ := hws u hu
    rwa [List.mem_singleton.mp hcu]
  · intro h
    refine ⟨w.map ([·]), ?_, fun u hu => ?_⟩
    · rw [← List.flatMap_def, List.flatMap_singleton']
    obtain ⟨c, hc, rfl⟩ := List.mem_map.mp hu
    exact ⟨c, h c hc, rfl⟩

theorem CharClass.mem_mul_kstar {cls : CharClass} {w : List Char} :
    w ∈ cls.language * cls.language∗ ↔ w ≠ [] ∧ ∀ c ∈ w, cls.holds c = true := by
  rw [Language.mem_mul]
  constructor
  · rintro ⟨_, ⟨c, hc, rfl⟩, v, hv, rfl⟩
    exact ⟨List.cons_ne_nil c v, List.forall_mem_cons.mpr ⟨hc, mem_kstar.mp hv⟩⟩
  · rintro ⟨hne, hw⟩
    obtain ⟨c, v, rfl⟩ := List.exists_cons_of_ne_nil hne
    obtain ⟨hc, hv⟩ := List.forall_mem_cons.mp hw
    exact ⟨[c], ⟨c, hc, rfl⟩, v, mem_kstar.mpr hv, rfl⟩

theorem CharClass.mem_language_char {c : Char} {w : List Char} :
    w ∈ (char c).language ↔ w = [c] := by
  constructor
  · rintro ⟨d, hd, rfl⟩
    rw [beq_iff_eq.mp hd]
  · rintro rfl
    exact ⟨c, beq_self_eq_true c, rfl⟩

namespace Expr

/-! ## 2. The language of an expression -/

/-- **The expression matches the texts of a language**, and captures nothing. -/
def Denotes (e : Expr) (l : Language Char) : Prop :=
  ∀ (text cs : List Char) (m : Match),
    m ∈ e.ways text cs ↔ m.groups = [] ∧ ∃ w ∈ l, w ++ m.rest = cs

variable {e first second : Expr} {l m : Language Char}

theorem Match.eq_mk_of_groups {m : Match} (h : m.groups = []) : m = ⟨m.rest, []⟩ := by
  rw [← h]

theorem denotes_empty : Denotes empty 1 := by
  intro text cs m
  constructor
  · intro h
    rw [List.mem_singleton.mp h]
    exact ⟨rfl, [], rfl, rfl⟩
  · rintro ⟨hm, w, rfl, rfl⟩
    exact List.mem_singleton.mpr (Match.eq_mk_of_groups hm)

theorem denotes_one (cls : CharClass) : Denotes (one cls) cls.language := by
  intro text cs m
  rw [mem_ways_one]
  constructor
  · rintro ⟨c, ds, hc, rfl, rfl⟩
    exact ⟨rfl, [c], ⟨c, hc, rfl⟩, rfl⟩
  · rintro ⟨hm, w, ⟨c, hc, rfl⟩, rfl⟩
    exact ⟨c, m.rest, hc, rfl, Match.eq_mk_of_groups hm⟩

theorem Denotes.seq (h₁ : Denotes first l) (h₂ : Denotes second m) :
    Denotes (seq first second) (l * m) := by
  intro text cs way
  rw [mem_ways_seq]
  constructor
  · rintro ⟨earlier, he, later, hl, rfl⟩
    obtain ⟨hgroups, u, hu, rfl⟩ := (h₁ _ _ _).mp he
    obtain ⟨hgroups', v, hv, hrest⟩ := (h₂ _ _ _).mp hl
    refine ⟨?_, u ++ v, Language.append_mem_mul hu hv, ?_⟩
    · show later.groups ++ earlier.groups = []
      rw [hgroups, hgroups', List.append_nil]
    · show u ++ v ++ later.rest = _
      rw [List.append_assoc, hrest]
  · rintro ⟨hgroups, w, hw, rfl⟩
    obtain ⟨u, hu, v, hv, rfl⟩ := Language.mem_mul.mp hw
    refine ⟨⟨v ++ way.rest, []⟩, (h₁ _ _ _).mpr ⟨rfl, u, hu, ?_⟩, way,
      (h₂ _ _ _).mpr ⟨hgroups, v, hv, rfl⟩, ?_⟩
    · exact (List.append_assoc u v way.rest).symm
    · show (⟨way.rest, way.groups ++ []⟩ : Match) = way
      rw [List.append_nil]

theorem Denotes.choice (h₁ : Denotes first l) (h₂ : Denotes second m) :
    Denotes (choice first second) (l + m) := by
  intro text cs way
  have hway : way ∈ (Expr.choice first second).ways text cs ↔
      way ∈ first.ways text cs ∨ way ∈ second.ways text cs := List.mem_append
  rw [hway, h₁ text, h₂ text]
  constructor
  · rintro (⟨hgroups, w, hw, hcs⟩ | ⟨hgroups, w, hw, hcs⟩)
    · exact ⟨hgroups, w, .inl hw, hcs⟩
    · exact ⟨hgroups, w, .inr hw, hcs⟩
  · rintro ⟨hgroups, w, hw | hw, hcs⟩
    · exact .inl ⟨hgroups, w, hw, hcs⟩
    · exact .inr ⟨hgroups, w, hw, hcs⟩

theorem Denotes.group (h : Denotes e l) : Denotes (group e) l := h

theorem Denotes.option (h : Denotes e l) : Denotes (option e) (l + 1) :=
  Denotes.choice h denotes_empty

theorem Denotes.congr (h : Denotes e l) (hl : ∀ w, w ∈ l ↔ w ∈ m) : Denotes e m := fun text cs way =>
  (h text cs way).trans (and_congr_right fun _ => exists_congr fun w => and_congr_left' (hl w))

/-! ## 3. Repetitions -/

/-- What passes over a body take is made of what the body takes. -/
theorem exists_of_mem_passes {text : List Char} (h : Denotes e l) {lazy : Bool} {fuel : Nat}
    {cs : List Char} {way : Match} (hm : way ∈ passes (e.ways text) lazy fuel cs) :
    way.groups = [] ∧ ∃ w ∈ l∗, w ++ way.rest = cs := by
  refine passes_induction (motive := fun cs m => m.groups = [] ∧ ∃ w ∈ l∗, w ++ m.rest = cs)
    (fun cs => ⟨rfl, [], Language.nil_mem_kstar l, rfl⟩) ?_ hm
  rintro cs earlier later he ⟨hgroups, v, hv, hrest⟩
  obtain ⟨hgroups', u, hu, rfl⟩ := (h _ _ _).mp he
  refine ⟨?_, u ++ v, ?_, ?_⟩
  · show later.groups ++ earlier.groups = []
    rw [hgroups, hgroups', List.append_nil]
  · obtain ⟨ws, rfl, hws⟩ := Language.mem_kstar.mp hv
    exact Language.mem_kstar.mpr ⟨u :: ws, rfl, List.forall_mem_cons.mpr ⟨hu, hws⟩⟩
  · show u ++ v ++ later.rest = _
    rw [List.append_assoc, hrest]

/-- Passes over what the body takes, each over something, take all of it. -/
theorem mem_passes_flatten {text : List Char} (h : Denotes e l) {lazy : Bool} {ws : List (List Char)}
    (hws : ∀ w ∈ ws, w ∈ l ∧ w ≠ []) {fuel : Nat} {cs rest : List Char}
    (hcs : ws.flatten ++ rest = cs) (hfuel : cs.length ≤ fuel) :
    ⟨rest, []⟩ ∈ passes (e.ways text) lazy fuel cs := by
  have hstop : ∀ fuel cs, (⟨cs, []⟩ : Match) ∈ passes (e.ways text) lazy fuel cs := by
    intro fuel cs
    cases fuel with
    | zero => exact List.mem_singleton.mpr rfl
    | succ fuel =>
      cases lazy with
      | true => exact List.mem_cons_self
      | false => exact List.mem_append_right _ (List.mem_singleton.mpr rfl)
  induction ws generalizing fuel cs with
  | nil =>
    rw [← hcs]
    exact hstop fuel rest
  | cons w ws ih =>
    obtain ⟨⟨hw, hne⟩, hws⟩ := List.forall_mem_cons.mp hws
    have hpos := List.length_pos_iff.mpr hne
    rw [List.flatten_cons, List.append_assoc] at hcs
    have hlength : w.length + (ws.flatten ++ rest).length = cs.length := by
      rw [← List.length_append, hcs]
    obtain ⟨fuel, rfl⟩ : ∃ k, fuel = k + 1 := ⟨fuel - 1, by omega⟩
    have hless : (ws.flatten ++ rest).length < cs.length := by omega
    have hfuel' : (ws.flatten ++ rest).length ≤ fuel := by omega
    have hpass : (⟨ws.flatten ++ rest, []⟩ : Match) ∈
        (e.ways text cs).filter (·.rest.length < cs.length) :=
      List.mem_filter.mpr ⟨(h _ _ _).mpr ⟨rfl, w, hw, hcs⟩, decide_eq_true hless⟩
    have hmore : (⟨rest, []⟩ : Match) ∈
        andThen (fun cs => (e.ways text cs).filter (·.rest.length < cs.length))
          (passes (e.ways text) lazy fuel) cs :=
      mem_andThen.mpr ⟨_, hpass, _, ih hws rfl hfuel', rfl⟩
    cases lazy with
    | true => exact List.mem_cons_of_mem _ hmore
    | false => exact List.mem_append_left _ hmore

/-- A repetition of what takes something. -/
theorem Denotes.passes (h : Denotes e l) {lazy : Bool} {text cs : List Char} {way : Match} :
    way ∈ Expr.passes (e.ways text) lazy cs.length cs ↔
      way.groups = [] ∧ ∃ w ∈ l∗, w ++ way.rest = cs := by
  refine ⟨exists_of_mem_passes h, ?_⟩
  rintro ⟨hgroups, w, hw, hcs⟩
  obtain ⟨ws, rfl, hws⟩ := Language.mem_kstar_iff_exists_nonempty.mp hw
  rw [Match.eq_mk_of_groups hgroups]
  exact mem_passes_flatten h hws hcs (Nat.le_refl _)

theorem Denotes.many (h : Denotes e l) {lazy : Bool} : Denotes (many lazy e) l∗ :=
  fun _ _ _ => h.passes

theorem Denotes.plus (h : Denotes e l) : Denotes (plus e) (l * l∗) := by
  have hmany : Denotes (Expr.many false e) l∗ := h.many
  exact h.seq hmany

/-! ## 4. Texts and choices -/

theorem denotes_word (cs : List Char) : Denotes (word cs) {cs} := by
  induction cs with
  | nil => exact denotes_empty
  | cons c cs ih =>
    refine ((denotes_one (.char c)).seq ih).congr fun w => ?_
    rw [Language.mem_mul]
    simp only [CharClass.mem_language_char, exists_eq_left]
    exact ⟨fun ⟨v, hv, h⟩ => h ▸ congrArg (c :: ·) hv, fun h => ⟨cs, rfl, h.symm⟩⟩

theorem mem_ways_choices {first : Expr} {rest : List Expr} {text cs : List Char} {way : Match} :
    way ∈ (choices first rest).ways text cs ↔ ∃ e ∈ first :: rest, way ∈ e.ways text cs := by
  induction rest generalizing first with
  | nil => simp only [choices, List.mem_singleton, exists_eq_left]
  | cons second rest ih =>
    have hway : way ∈ (choices first (second :: rest)).ways text cs ↔
        way ∈ first.ways text cs ∨ way ∈ (choices second rest).ways text cs := List.mem_append
    simp only [hway, ih, List.exists_mem_cons_iff]

end Expr

end Verdict
