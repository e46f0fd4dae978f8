import Verdict.Operator.Basic
import Verdict.Regex.Table

/-!
# Matching a whole value

The operator that takes a text as an expression puts it between the two ends of a text and compiles
what comes of it. So it decides about the whole value, for every text that stays an expression there.
It does not look at the text by itself: one that is no expression is refused as long as it does not
close the group that it is put into.

* `Expr.whole` -- an expression between the two ends, as a tree.
* `Expr.isMatch_whole` -- **it matches somewhere exactly where the expression matches the whole text.**
* `RegexLibrary.GroupsClose` -- what a library has to make of a group.
* `matchesPattern_decides_whole` -- **what the operator decides**, and which texts it refuses.
-/

namespace Verdict

/-! ## 1. An expression between the two ends -/

namespace Expr

open Regex (Match)

/-- An expression between the two ends of a text. -/
def whole (re : Regex) : Expr := seq start (seq (own re) finish)

variable {re : Regex} {text cs : List Char} {m : Match}

/-- **Its text is the one that is put together.** -/
theorem text_whole (re : Regex) : (whole re).text = Regex.anchored re.source := by
  show ['^'] ++ (("(?:".toList ++ re.source ++ [')']) ++ ['$']) = _
  simp only [Regex.anchored, List.append_assoc]
  rfl

theorem wellFormed_whole [RegexLibrary] (h : RegexLibrary.compile? re.source = some re) :
    (whole re).WellFormed false := ⟨rfl, rfl, trivial, rfl, rfl, ⟨rfl, h⟩, trivial⟩

/-- **Between the two ends** an expression matches where it matches the whole text. -/
theorem isMatch_whole (re : Regex) (text : List Char) :
    (whole re).regex.isMatch text = true ↔ re.MatchesWhole text := by
  have hstart : start.ways text text = [⟨text, []⟩] := if_pos rfl
  have hfinish : ∀ {ds : List Char}, (∃ m, m ∈ finish.ways text ds) ↔ ds = [] := by
    intro ds
    cases ds with
    | nil => exact iff_of_true ⟨_, List.mem_singleton.mpr rfl⟩ rfl
    | cons d ds => exact iff_of_false (fun ⟨_, h⟩ => List.not_mem_nil h) (List.cons_ne_nil d ds)
  have hways : (∃ m, m ∈ (whole re).ways text text) ↔ re.MatchesWhole text := by
    constructor
    · rintro ⟨m, hm⟩
      obtain ⟨first, hfirst, more, hmore, -⟩ := mem_ways_seq.mp hm
      rw [hstart, List.mem_singleton] at hfirst
      subst hfirst
      obtain ⟨inner, hinner, last, hlast, -⟩ := mem_ways_seq.mp hmore
      exact ⟨inner, hinner, hfinish.mp ⟨last, hlast⟩⟩
    · rintro ⟨inner, hinner, hrest⟩
      obtain ⟨last, hlast⟩ := hfinish.mpr hrest
      exact ⟨_, mem_ways_seq.mpr ⟨⟨text, []⟩, hstart ▸ List.mem_singleton.mpr rfl, _,
        mem_ways_seq.mpr ⟨inner, hinner, last, hlast, rfl⟩, rfl⟩⟩
  rw [Regex.isMatch, whole, captures?_seq_start, ← whole, List.isSome_head?, ← hways]
  exact ⟨List.exists_mem_of_ne_nil _, fun ⟨_, hm⟩ => List.ne_nil_of_mem hm⟩

end Expr

/-! ## 2. What the operator decides -/

/-- **A group ends at the first bracket that closes it.** So what stands between the brackets of a group
    that the library takes is an expression by itself, or closes the group before, and then what it has
    up to there is one. -/
def RegexLibrary.GroupsClose [RegexLibrary] : Prop :=
  ∀ text, RegexLibrary.compile? (Regex.anchored text) ≠ none → RegexLibrary.compile? text ≠ none ∨
    ∃ front behind, text = front ++ ')' :: behind ∧ RegexLibrary.compile? front ≠ none

namespace Comparison

open RegexLibrary (compile? GroupsClose Reads)

variable [RegexLibrary]

theorem matchesPattern_of_some (value : String) {text : String} {re : Regex}
    (h : compile? (Regex.anchored text.toList) = some re) :
    matchesPattern.rule (.text value) (.text text) = .ok (re.isMatch value.toList) := by
  simp only [matchesPattern, Rule.matchesPattern, h]

theorem matchesPattern_of_none (value : String) {text : String}
    (h : compile? (Regex.anchored text.toList) = none) :
    matchesPattern.rule (.text value) (.text text) = .error (.badOperand (.notPattern text)) := by
  simp only [matchesPattern, Rule.matchesPattern, h]

/-- **What the operator decides that takes a text as an expression.** A text that is one by itself and
    that the library takes between the two ends is matched against the whole value. One that it does not
    take there is refused, and so is a text that is none by itself, unless it closes the group that it
    is put into behind an expression. -/
theorem matchesPattern_decides_whole (value text : String) :
    (∀ inner, compile? text.toList = some inner → Reads (Expr.whole inner) →
      (compile? (Regex.anchored text.toList) ≠ none → ∃ b,
        matchesPattern.rule (.text value) (.text text) = .ok b ∧
          (b = true ↔ inner.MatchesWhole value.toList)) ∧
      (compile? (Regex.anchored text.toList) = none →
        matchesPattern.rule (.text value) (.text text)
          = .error (.badOperand (.notPattern text)))) ∧
    (compile? text.toList = none → GroupsClose →
      (∀ front behind, text.toList = front ++ ')' :: behind → compile? front = none) →
        matchesPattern.rule (.text value) (.text text)
          = .error (.badOperand (.notPattern text))) := by
  refine ⟨fun inner h hreads => ⟨fun hwhole => ?_, matchesPattern_of_none value⟩,
    fun h hgroups hopen => matchesPattern_of_none value (Classical.byContradiction fun hwhole => ?_)⟩
  · obtain ⟨re, hre⟩ := Option.ne_none_iff_exists'.mp hwhole
    have hsource : inner.source = text.toList := RegexLibrary.source_eq h
    have htext : (Expr.whole inner).text = Regex.anchored text.toList := by
      rw [Expr.text_whole, hsource]
    obtain ⟨-, hcaptures⟩ := hreads (Expr.wellFormed_whole (hsource ▸ h)) re (htext ▸ hre)
    refine ⟨_, matchesPattern_of_some value hre, ?_⟩
    rw [← Expr.isMatch_whole, Regex.isMatch, Regex.isMatch, hcaptures]
  · rcases hgroups _ hwhole with hinner | ⟨front, behind, htext, hfront⟩
    · exact hinner h
    · exact hfront (hopen front behind htext)

end Comparison

/-! ## 3. Cases -/

/-- A choice between two texts that begin alike. -/
def Expr.letterOrWord : Expr := choice (Expr.word "a".toList) (Expr.word "abc".toList)

/-- What the text `a)|(?:b` comes to between the ends: a choice of two groups, each at one end. -/
def Expr.halves : Expr :=
  choice (seq start (group (Expr.word "a".toList))) (seq (group (Expr.word "b".toList)) finish)

/-- A letter with a comment behind it. -/
def Regex.commented : Regex :=
  { (Expr.word "a".toList).regex with source := "(?x)a # c".toList }

/-- Some expressions: some that are kept between the ends, one that is not kept, and one that is none
    by itself. -/
def Regex.samples : List Regex :=
  [Expr.letterOrWord.regex, (Expr.whole Expr.letterOrWord.regex).regex, Regex.commented,
    Expr.halves.regex, (Expr.word "a".toList).regex]

theorem Regex.anchored_inj {cs ds : List Char} (h : Regex.anchored cs = Regex.anchored ds) :
    cs = ds := by
  simpa only [Regex.anchored, List.append_assoc, List.append_cancel_left_eq,
    List.append_cancel_right_eq] using h

theorem groupsClose_samples : @RegexLibrary.GroupsClose (.table Regex.samples) := by
  intro text h
  obtain ⟨re, hre⟩ := Option.ne_none_iff_exists'.mp h
  have hsource : re.source = Regex.anchored text :=
    @RegexLibrary.source_eq (.table Regex.samples) _ _ hre
  have hhead : re.source.head? = some '^' := congrArg List.head? hsource
  have hmem : re ∈ Regex.samples := List.mem_of_find?_eq_some hre
  simp only [Regex.samples, List.mem_cons, List.not_mem_nil, or_false] at hmem
  rcases hmem with rfl | rfl | rfl | rfl | rfl
  · exact absurd hhead (by decide)
  · rw [← Regex.anchored_inj ((Expr.text_whole _).symm.trans hsource)]
    exact .inl (Option.some_ne_none Expr.letterOrWord.regex)
  · exact absurd hhead (by decide)
  · have hhalves : Expr.halves.text = Regex.anchored "a)|(?:b".toList := rfl
    rw [← Regex.anchored_inj (hhalves.symm.trans hsource)]
    exact .inr ⟨"a".toList, "|(?:b".toList, rfl, Option.some_ne_none (Expr.word "a".toList).regex⟩
  · exact absurd hhead (by decide)

namespace Comparison

/-- An expression that is kept between the ends, one that ends in a comment, and a text that is none. -/
theorem matchesPattern_decides_whole_cases : letI := RegexLibrary.table Regex.samples
    matchesPattern.rule (.text "abc") (.text "a|abc") = .ok true ∧
      matchesPattern.rule (.text "a") (.text "(?x)a # c")
        = .error (.badOperand (.notPattern "(?x)a # c")) ∧
      matchesPattern.rule (.text "a") (.text "[a-")
        = .error (.badOperand (.notPattern "[a-")) := by
  let library := RegexLibrary.table Regex.samples
  have hreads : RegexLibrary.Reads (Expr.whole Expr.letterOrWord.regex) :=
    RegexLibrary.reads_table rfl List.nodup_nil
  have hmatches : Expr.letterOrWord.regex.MatchesWhole "abc".toList := ⟨⟨[], []⟩, by decide, rfl⟩
  refine ⟨?_, ?_, ?_⟩
  · obtain ⟨b, hb, hiff⟩ := ((matchesPattern_decides_whole "abc" "a|abc").1
      Expr.letterOrWord.regex rfl hreads).1 (Option.some_ne_none _)
    rw [hb, hiff.mpr hmatches]
  · have hnone : RegexLibrary.compile? (Regex.anchored "(?x)a # c".toList) = none := rfl
    have hrefused : RegexLibrary.Reads (Expr.whole Regex.commented) := by
      intro _ re hre
      rw [Expr.text_whole] at hre
      exact absurd (hnone.symm.trans hre) nofun
    exact ((matchesPattern_decides_whole "a" "(?x)a # c").1
      Regex.commented rfl hrefused).2 hnone
  · refine (matchesPattern_decides_whole "a" "[a-").2 rfl groupsClose_samples ?_
    intro front behind h
    have hmem : ')' ∈ "[a-".toList := h ▸ List.mem_append_right _ List.mem_cons_self
    exact absurd hmem (by decide)

/-- **Not every text is taken for what it is by itself**: one that closes the group and opens another is
    no expression, yet the comparison comes to an answer, and about a part of the value only; an
    expression that ends in a comment matches the value by itself and is refused. -/
theorem matchesPattern_ne_whole : letI := RegexLibrary.table Regex.samples
    RegexLibrary.compile? "a)|(?:b".toList = none ∧
      matchesPattern.rule (.text "ax") (.text "a)|(?:b") = .ok true ∧
      (∃ inner, RegexLibrary.compile? "(?x)a # c".toList = some inner ∧
        inner.MatchesWhole "a".toList) ∧
      matchesPattern.rule (.text "a") (.text "(?x)a # c")
        = .error (.badOperand (.notPattern "(?x)a # c")) :=
  ⟨rfl, rfl, ⟨Regex.commented, rfl, ⟨[], []⟩, by decide, rfl⟩, rfl⟩

end Comparison

end Verdict
