import Verdict.Proofs.Captures
import Verdict.Proofs.WholeMatch

/-!
# Reserved names of groups

A form of names that is given by an expression is put into the expression for a front as text, among
the groups by whose names an operator, a lead, an operand and closing brackets are told apart. No list
of names is looked up for this: what keeps a group of the form from being taken for one of them is that
an expression may not have two groups of one name. So a name is reserved where the expression for the
front has a group of that name itself, wherever in the form the group stands. A registry without
operators has no group for them. There a form may have one, and what that captures is read in place of
the whole piece.

* `TellsParts` -- the groups of a match are those of an operator by itself, or of the parts of a piece.
* `SlipsThrough` -- the one case where a group of a form has a name that tells parts apart.
* `Scanner.ofRegistry_reserved` -- **a form with such a group is refused, but for that one case.**
* `Scanner.ofRegistry_operator_group` -- in that case brackets are dropped.
-/

namespace Verdict

open Text
open RegexLibrary (Accepts Reads)

/-! ## 1. Groups that tell parts apart -/

/-- The names by which the parts of a front are told apart. -/
def partNames : List String := ["operator", "lead", "body", "close"]

theorem Registry.operator_mem_reservedNames {r : Registry} (hr : r.names ≠ []) :
    "operator" ∈ r.reservedNames := by
  rw [Registry.reservedNames, List.isEmpty_eq_false_iff.mpr hr]
  exact List.mem_cons_self

theorem mem_partNames_iff {r : Registry} {name : String} : name ∈ partNames ↔
    name ∈ r.reservedNames ∨ name = "operator" := by
  unfold Registry.reservedNames partNames
  cases r.names.isEmpty <;> simp [or_comm, or_left_comm]

/-- **The groups of a match tell the parts of a front apart**: one has captured an operator that stands
    by itself, or the others have captured the lead, the operand and the closing brackets of a piece
    that ends at a gap. -/
def TellsParts (front : Regex) : Prop :=
  ∀ cs m, front.captures? cs = some m →
    (∃ w ds, w ++ ds = cs ∧ AtGap ds ∧ m.rest = ds.tail ∧ m.group? "operator" = some w) ∨
    ∃ piece : Piece, piece.lead ++ piece.tail.chars = cs ∧ AtGap piece.tail.rest ∧
      m.rest = piece.tail.rest.tail ∧ m.group? "operator" = none ∧
      m.group? "lead" = some piece.lead ∧ m.group? "body" = piece.tail.lexeme ∧
      m.group? "close" = some (List.replicate piece.tail.closing ')')

/-- **The one case** where a group of a form of names has a name that tells parts apart: the registry
    has no operators, and the group is named like one for operators. -/
structure SlipsThrough (r : Registry) (own : Regex) : Prop where
  operators : r.names = []
  operator : "operator" ∈ own.names
  others : ∀ name ∈ ["lead", "body", "close"], name ∉ own.names

namespace Scanner

variable [RegexLibrary] {r : Registry} {own : Regex} {scanner : Scanner}

/-! ## 2. Forms that are refused -/

/-- A scanner that is not let through is refused for its form of names, or for its operators. -/
theorem exists_reason_of_error {form : Option Regex} {x : Fault}
    (h : Scanner.ofRegistry r form = .error x) : ∃ reason, x = .badNamePattern reason := by
  have hcompiled : ∀ {text : List Char}, compiled text = .error x →
      ∃ reason, x = .badNamePattern reason := by
    intro text hx
    unfold compiled at hx
    split at hx
    · cases hx
    · exact ⟨_, (Except.error.inj hx).symm⟩
  cases form with
  | none =>
    rcases bind_eq_error_iff.mp h with hfront | ⟨front, -, hok⟩
    · exact hcompiled hfront
    · cases hok
  | some own =>
    rcases bind_eq_error_iff.mp h with hwhole | ⟨whole, -, hbind⟩
    · exact hcompiled (map_eq_error_iff.mp hwhole)
    · rcases bind_eq_error_iff.mp hbind with hfront | ⟨front, -, hok⟩
      · exact hcompiled hfront
      · cases hok

section Groups

variable {form : Option Regex}

/-- No name of a group of the expression for a front is the name of a group of the form. -/
theorem not_mem_names_of_reserved (hform : ∀ re ∈ form, RegexLibrary.compile? re.source = some re)
    (hreads : Reads (r.front form)) (h : Scanner.ofRegistry r form = .ok scanner)
    {name : String} (hname : name ∈ r.reservedNames) : name ∉ form.elim [] Regex.names := by
  obtain ⟨hnodup, -⟩ := reads_front hform hreads h
  exact (Registry.nodup_names_front_iff.mp hnodup).2 name hname

/-- **Where the form has no group for operators, the groups tell the parts of a front apart.** -/
theorem tellsParts_of_not_mem (hform : ∀ re ∈ form, RegexLibrary.compile? re.source = some re)
    (hreads : Reads (r.front form)) (h : Scanner.ofRegistry r form = .ok scanner)
    (hoperator : "operator" ∉ form.elim [] Regex.names) : TellsParts scanner.front := by
  intro cs m hm
  obtain ⟨-, hcaptures⟩ := reads_front hform hreads h
  have hlead : "lead" ∉ form.elim [] Regex.names := not_mem_names_of_reserved hform hreads h
    (List.mem_append_right _ List.mem_cons_self)
  rw [hcaptures, Registry.captures?_front] at hm
  cases Registry.captures_of_mem (List.mem_of_head? hm) with
  | @operator w ds hcs hgap => exact .inl ⟨w, ds, hcs, hgap, rfl, rfl⟩
  | @piece ds groups hpiece hgap =>
    obtain ⟨piece, hcs, hrest, hgroups⟩ := hpiece.exists_piece hoperator hlead
    exact .inr ⟨piece, hcs, hrest ▸ hgap, congrArg List.tail hrest.symm, hgroups⟩

/-- So it is with every form that is let through where the registry has operators. -/
theorem tellsParts_of_operators (hr : r.names ≠ [])
    (hform : ∀ re ∈ form, RegexLibrary.compile? re.source = some re)
    (hreads : Reads (r.front form)) (h : Scanner.ofRegistry r form = .ok scanner) :
    TellsParts scanner.front :=
  tellsParts_of_not_mem hform hreads h <| not_mem_names_of_reserved hform hreads h <|
    Registry.operator_mem_reservedNames hr

end Groups

/-- A form that is let through has no group with a name that tells parts apart, but for the one
    case. -/
theorem slipsThrough_of_mem (hown : ∀ re ∈ some own, RegexLibrary.compile? re.source = some re)
    (hreads : Reads (r.front (some own))) (h : Scanner.ofRegistry r (some own) = .ok scanner)
    {name : String} (hname : name ∈ partNames) (hm : name ∈ own.names) : SlipsThrough r own := by
  have hfree : ∀ name ∈ r.reservedNames, name ∉ own.names := fun name =>
    not_mem_names_of_reserved hown hreads h
  obtain rfl := (mem_partNames_iff.mp hname).resolve_left fun hreserved => hfree name hreserved hm
  have hnames : r.names = [] := by
    by_contra hne
    exact hfree "operator" (Registry.operator_mem_reservedNames hne) hm
  exact ⟨hnames, hm, fun name hname => hfree name (List.mem_append_right _ hname)⟩

/-- **A form of names with a group by whose name a part of a front is told apart is refused, and with a
    form that is let through the groups tell the parts apart**, but for a form with a group for
    operators where the registry has no operators. That one is let through if there is room for it. -/
theorem ofRegistry_reserved (hown : RegexLibrary.compile? own.source = some own)
    (hreads : Reads (r.front (some own))) :
    (¬ SlipsThrough r own →
      ((∃ name ∈ partNames, name ∈ own.names) →
        ∃ reason, Scanner.ofRegistry r (some own) = .error (.badNamePattern reason)) ∧
      ∀ scanner, Scanner.ofRegistry r (some own) = .ok scanner → TellsParts scanner.front) ∧
    (SlipsThrough r own → own.names.Nodup → Accepts (r.front (some own)) →
      RegexLibrary.compile? (Regex.anchored own.source) ≠ none →
        ∃ scanner, Scanner.ofRegistry r (some own) = .ok scanner) := by
  have hform : ∀ re ∈ some own, RegexLibrary.compile? re.source = some re :=
    fun _ he => Option.some.inj he ▸ hown
  refine ⟨fun hslips => ⟨?_, fun scanner h => ?_⟩, fun hslips hnodup haccepts hwhole => ?_⟩
  · rintro ⟨name, hname, hm⟩
    cases h : Scanner.ofRegistry r (some own) with
    | error x =>
      obtain ⟨reason, rfl⟩ := exists_reason_of_error h
      exact ⟨reason, rfl⟩
    | ok scanner => exact absurd (slipsThrough_of_mem hform hreads h hname hm) hslips
  · exact tellsParts_of_not_mem hform hreads h fun hm =>
      hslips (slipsThrough_of_mem hform hreads h List.mem_cons_self hm)
  · obtain ⟨whole, hwhole⟩ := Option.ne_none_iff_exists'.mp hwhole
    have hreserved : r.reservedNames = ["lead", "body", "close"] := by
      rw [Registry.reservedNames, hslips.operators]
      rfl
    obtain ⟨front, hfront⟩ := haccepts (r.wellFormed_front hform)
      (Registry.nodup_names_front_iff.mpr ⟨hnodup, hreserved ▸ hslips.others⟩)
    exact ⟨⟨front, some whole⟩,
      scanner_eq_ok_iff.mpr ⟨hfront, .inr ⟨own, whole, rfl, rfl, hwhole⟩⟩⟩

end Scanner

/-! ## 3. Cases -/

/-- A form with a group for closing brackets deep inside. -/
def Expr.nestedClose : Expr :=
  plus (group (choice (word ['a']) (seq (word ['b']) (option (capture "close" (word ['c']))))))

/-- A form that is a group for operators. -/
def Expr.operatorGroup : Expr := capture "operator" (plus (one (.char 'a')))

/-- The expressions for such forms, and what the form that slips through is put into. -/
def Regex.groupSamples : List Regex :=
  [Expr.nestedClose.regex, Expr.operatorGroup.regex, (Expr.whole Expr.operatorGroup.regex).regex,
    (Registry.empty.front (some Expr.operatorGroup.regex)).regex]

/-- The default operators without the comparisons. -/
def Registry.connected : Registry := ⟨[], [.and, .or], [.not]⟩

theorem slipsThrough_operatorGroup : SlipsThrough .empty Expr.operatorGroup.regex :=
  ⟨rfl, by decide, by decide⟩

theorem compile?_groupSamples :
    (RegexLibrary.table Regex.groupSamples).compile?
        (Registry.empty.front (some Expr.operatorGroup.regex)).text
      = some (Registry.empty.front (some Expr.operatorGroup.regex)).regex := rfl

namespace Scanner

/-- A group for closing brackets deep inside a form is found, and a group for operators slips through
    where there are none. -/
theorem ofRegistry_reserved_groups : letI := RegexLibrary.table Regex.groupSamples
    (¬ SlipsThrough .connected Expr.nestedClose.regex ∧ "close" ∈ Expr.nestedClose.regex.names ∧
      ∃ reason, Scanner.ofRegistry .connected (some Expr.nestedClose.regex)
        = .error (.badNamePattern reason)) ∧
    SlipsThrough .empty Expr.operatorGroup.regex ∧
      ∃ scanner, Scanner.ofRegistry .empty (some Expr.operatorGroup.regex) = .ok scanner := by
  let library := RegexLibrary.table Regex.groupSamples
  have hslips : ¬ SlipsThrough .connected Expr.nestedClose.regex := fun h =>
    absurd h.operators (List.cons_ne_nil _ _)
  have hclose : "close" ∈ Expr.nestedClose.regex.names := List.mem_cons_self
  have hrefused : RegexLibrary.compile?
      (Registry.connected.front (some Expr.nestedClose.regex)).text = none := rfl
  have hnested : Reads (Registry.connected.front (some Expr.nestedClose.regex)) :=
    fun _ re hre => absurd (hrefused.symm.trans hre) nofun
  have hoperator : Reads (Registry.empty.front (some Expr.operatorGroup.regex)) :=
    RegexLibrary.reads_table compile?_groupSamples (by decide)
  have hwhole : RegexLibrary.compile? (Regex.anchored Expr.operatorGroup.regex.source) ≠ none :=
    Option.some_ne_none (Expr.whole Expr.operatorGroup.regex).regex
  exact ⟨⟨hslips, hclose, ((ofRegistry_reserved rfl hnested).1 hslips).1 ⟨"close", by decide, hclose⟩⟩,
    slipsThrough_operatorGroup, (ofRegistry_reserved rfl hoperator).2 slipsThrough_operatorGroup
      (by decide) (RegexLibrary.accepts_table compile?_groupSamples) hwhole⟩

/-- **A group for operators takes over where the registry has no operators**: the form is let through,
    and a piece loses its brackets. -/
theorem ofRegistry_operator_group : letI := RegexLibrary.table Regex.groupSamples
    ∃ scanner, RegexLibrary.compile? Expr.operatorGroup.text = some Expr.operatorGroup.regex ∧
      "operator" ∈ Expr.operatorGroup.regex.names ∧
      Scanner.ofRegistry .empty (some Expr.operatorGroup.regex) = .ok scanner ∧
      (Grammar.mk .empty (some scanner)).read "(aaa)" = .ok [.operand (.var "aaa")] := by
  let library := RegexLibrary.table Regex.groupSamples
  refine ⟨⟨(Registry.empty.front (some Expr.operatorGroup.regex)).regex,
    some (Expr.whole Expr.operatorGroup.regex).regex⟩, rfl, by decide, ?_, rfl⟩
  exact scanner_eq_ok_iff.mpr ⟨compile?_groupSamples, .inr ⟨_, _, rfl, rfl, rfl⟩⟩

end Scanner

end Verdict
