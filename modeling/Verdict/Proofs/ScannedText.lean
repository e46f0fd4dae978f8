import Verdict.Proofs.Reserving
import Verdict.Proofs.Spelling

/-!
# A scanned text spelled by its elements

A scanner reads a text with one expression, into which a form of names may have been put that matches
blanks, brackets, quotes or nothing at all. Still the text is spelled by the elements that are read:
the groups of a match tell the parts of a front apart, the parts of a front are all of it, and what is
taken behind it is a blank. A name is one that its form matches as a whole.

* `Grammar.spelledOpen_scanFront` -- a front that is scanned is spelled by its elements.
* `Grammar.FullName` -- a name that its form matches from its first character to its last.
* `Grammar.spelled_of_scan` -- **what is scanned spells the text**, for every form of names.
-/

namespace Verdict

open Text
open RegexLibrary (Accepts Reads)

namespace Grammar

variable {g : Grammar} {front : Regex} {cs rest : List Char} {es more : Condition}

/-! ## 1. Fronts -/

/-- **A front that is scanned is spelled by its elements.** Behind it there is a gap, of which a blank
    may be gone. -/
theorem spelledOpen_scanFront (htells : TellsParts front)
    (h : g.scanFront front cs = .ok (es, rest)) : ∃ ds, AtGap ds ∧ rest = ds.tail ∧
      ((∀ last, g.SpelledBehind last ds more) → g.SpelledOpen cs (es ++ more)) := by
  rw [scanFront] at h
  split at h
  · rename_i m hm
    obtain ⟨elements, helements, he⟩ := map_eq_ok_iff.mp h
    cases he
    rw [matchElements] at helements
    rcases htells cs m hm with ⟨w, ds, hcs, hgap, hrest, hoperator⟩ |
      ⟨piece, hcs, hgap, hrest, hoperator, hlead, hbody, hclose⟩
    · rw [hoperator] at helements
      obtain ⟨e, he, rfl⟩ := map_eq_ok_iff.mp helements
      exact ⟨ds, hgap, hrest, fun hmore =>
        hcs ▸ spelledOpen_cons (spells_of_readOperator he) (hmore _)⟩
    · rw [hoperator, hlead, hbody, hclose] at helements
      refine ⟨piece.tail.rest, hgap, hrest, fun hmore => hcs ▸ spelledOpen_piece ?_ hmore⟩
      rw [← helements]
      simp only [pieceElements, Option.getD_some, List.length_replicate]
  · cases h

/-- What a blank less spells, the text spells behind any element. -/
theorem SpelledOpen.behind_gap {ds : List Char} (hgap : AtGap ds) (h : g.SpelledOpen ds.tail more)
    (hnil : ds.tail = [] → more = []) (last : Option Element) : g.SpelledBehind last ds more := by
  cases ds with
  | nil =>
    rw [hnil rfl]
    exact .gap allBlank_nil
  | cons b ds =>
    have hblank : AllBlank [b] := fun c hc => List.mem_singleton.mp hc ▸ atGap_cons.mp hgap
    exact h last [b] hblank fun hempty => absurd hempty (List.cons_ne_nil b [])

/-! ## 2. Whole texts -/

/-- What is scanned from a place on spells the text there. -/
theorem spelledOpen_of_readBy (htells : TellsParts front) (honward : Onward (g.scanFront front))
    (h : readBy (g.scanFront front) 0 cs = .ok es) : g.SpelledOpen cs es := by
  -- where nothing is left nothing is read, so that the end of the text may stand behind any element
  refine (honward.readBy_induction (motive := fun cs es =>
    g.SpelledOpen cs es ∧ (cs = [] → es = [])) ?_ ?_ h).1
  · intro gap hgap
    refine ⟨fun last before hbefore _ => ?_, fun _ => rfl⟩
    exact SpelledBehind.blanks hbefore (.gap hgap)
  · intro gap c ds es rest more hgap hc hfront ih
    obtain ⟨behind, hbehind, rfl, hspelled⟩ := spelledOpen_scanFront htells hfront
    refine ⟨fun last before hbefore hl => ?_, fun hnil => ?_⟩
    · have hopen := hspelled fun last => ih.1.behind_gap hbehind ih.2 last
      have hblanks : AllBlank (before ++ gap) := fun c hc =>
        (List.mem_append.mp hc).elim (hbefore c) (hgap c)
      rw [← List.append_assoc]
      exact hopen last (before ++ gap) hblanks fun hnil => hl (List.append_eq_nil_iff.mp hnil).1
    · exact absurd (List.append_eq_nil_iff.mp hnil).2 (List.cons_ne_nil c ds)

/-- **A full match of the form of names**: of the usual form, or of a form of its own from the first
    character to the last. -/
def FullName (own : Option Regex) (name : List Char) : Prop :=
  match own with
  | none => isPlainName name = true
  | some re => re.MatchesWhole name

section Library

variable [RegexLibrary] {r : Registry} {own : Option Regex} {scanner : Scanner}

/-- What counts as a name is a full match. -/
theorem fullName_of_isName (hown : ∀ re ∈ own, RegexLibrary.compile? re.source = some re)
    (hwhole : ∀ re ∈ own, Reads (Expr.whole re)) (h : Scanner.ofRegistry r own = .ok scanner)
    {name : List Char} (hname : (Grammar.mk r (some scanner)).isName name = true) :
    FullName own name := by
  rcases (scanner_eq_ok_iff.mp h).2 with ⟨rfl, hscanner⟩ | ⟨re, whole, rfl, hscanner, hcompile⟩
  · simp only [isName, Option.bind_some, hscanner] at hname
    exact hname
  · simp only [isName, Option.bind_some, hscanner] at hname
    rw [← Expr.text_whole] at hcompile
    obtain ⟨-, hcaptures⟩ := hwhole re rfl (Expr.wellFormed_whole (hown re rfl)) whole hcompile
    exact (Expr.isMatch_whole re name).mp (by rwa [Regex.isMatch, ← hcaptures])

/-- **A text that is scanned is spelled by its elements**, and each variable in it has a full name. A
    registry without operators is left out: for it the name by which operators are told apart is not
    reserved. -/
theorem spelled_of_scan (hr : r.names ≠ [])
    (hown : ∀ re ∈ own, RegexLibrary.compile? re.source = some re)
    (hfront : Reads (r.front own)) (hwhole : ∀ re ∈ own, Reads (Expr.whole re))
    (h : Scanner.ofRegistry r own = .ok scanner) {text : String} {c : Condition}
    (hread : (Grammar.mk r (some scanner)).read text = .ok c) :
    (Grammar.mk r (some scanner)).SpelledBehind none text.toList c ∧
      ∀ name, .operand (.var name) ∈ c → FullName own name.toList := by
  have htells := Scanner.tellsParts_of_operators hr hown hfront h
  obtain ⟨-, hcaptures⟩ := Scanner.reads_front hown hfront h
  have hspelled := spelledOpen_of_readBy htells
    (Registry.onward_scanFront (Grammar.mk r (some scanner)) hcaptures) (read_eq_ok_iff.mp hread).1
  have hstart : (Grammar.mk r (some scanner)).SpelledBehind none text.toList c :=
    hspelled.behind nofun
  exact ⟨hstart, fun name hm => fullName_of_isName hown hwhole h (hstart.isName hm)⟩

end Library

end Grammar

/-! ## 3. A form that matches nearly anything -/

/-- A form of names that matches letters, blanks and brackets, or nothing. -/
def Expr.loose : Expr :=
  many false (one (.set [.range 'a' 'c', .char '(', .char ')', .char ' ']))

/-- The expressions for names of this form, in a registry without comparisons. -/
def Regex.looseSamples : List Regex :=
  [Expr.loose.regex, (Expr.whole Expr.loose.regex).regex,
    (Registry.connected.front (some Expr.loose.regex)).regex]

/-- The scanner for them. -/
def Scanner.loose : Scanner :=
  ⟨(Registry.connected.front (some Expr.loose.regex)).regex,
    some (Expr.whole Expr.loose.regex).regex⟩

theorem compile?_looseSamples : (RegexLibrary.table Regex.looseSamples).compile?
    (Registry.connected.front (some Expr.loose.regex)).text
      = some (Registry.connected.front (some Expr.loose.regex)).regex := rfl

theorem ofRegistry_loose : @Scanner.ofRegistry (.table Regex.looseSamples) .connected
    (some Expr.loose.regex) = .ok .loose :=
  (@scanner_eq_ok_iff (.table Regex.looseSamples) _ _ _).mpr
    ⟨compile?_looseSamples, .inr ⟨_, _, rfl, rfl, rfl⟩⟩

/-- Two names with blanks and brackets in them. -/
theorem Grammar.spelled_of_scan_loose : letI := RegexLibrary.table Regex.looseSamples
    Scanner.ofRegistry .connected (some Expr.loose.regex) = .ok .loose ∧
      ∃ c, (Grammar.mk .connected (some .loose)).read " !(a b )\t()" = .ok c ∧
        Condition.variableNames c = [")", "a b )"] ∧
        (Grammar.mk .connected (some .loose)).SpelledBehind none " !(a b )\t()".toList c ∧
        ∀ name, .operand (.var name) ∈ c → FullName (some Expr.loose.regex) name.toList := by
  let library := RegexLibrary.table Regex.looseSamples
  have hread : (Grammar.mk .connected (some .loose)).read " !(a b )\t()"
      = .ok [.negation .not, .bracket .opening, .operand (.var "a b )"), .bracket .opening,
          .operand (.var ")")] := rfl
  have hr : Registry.connected.names ≠ [] := by decide
  have hown : ∀ re ∈ some Expr.loose.regex, RegexLibrary.compile? re.source = some re :=
    fun re he => Option.some.inj he ▸ rfl
  have hfront : Reads (Registry.connected.front (some Expr.loose.regex)) :=
    RegexLibrary.reads_table compile?_looseSamples (by decide)
  have hwhole : ∀ re ∈ some Expr.loose.regex, Reads (Expr.whole re) :=
    fun re he => Option.some.inj he ▸ RegexLibrary.reads_table rfl List.nodup_nil
  exact ⟨ofRegistry_loose, _, hread, by decide,
    Grammar.spelled_of_scan hr hown hfront hwhole ofRegistry_loose hread⟩

end Verdict
