import Verdict.Evaluation
import Verdict.Pattern.Library
import Verdict.Proofs.RoundTrip

/-!
# Read conditions written and read again

A condition that was read can be told by its text, whatever the text looked like that it was read
from: its operators are those of the registry, its words have the form of operands, and its literals
leave out one kind of quotes (`legible_of_readFrom`). A variable may have the name of a keyword, as
in `(isIn)`, but then it was not read by itself, and is not written by itself.

So the condition is read again as it is, but for two things. Two negations with a blank between
them, as in `! !`, are written as the one symbol `!!`. And a literal that ends with a backslash, as
`"a\"`, may be written between other quotes than it was read from, and then not end at its own
quote: an escaped quote in it does, or a quote of another literal behind it. `parse_render_iff` says
that nothing else can go wrong.

* `legible_of_readFrom` -- what was read is legible.
* `read_render_iff` -- exactly when it is read again, with any operators.
* `parse_render_iff` -- **exactly when it is read again, with the default operators.**
* `parse_render_ne` -- two conditions that are not.
-/

namespace Verdict

open Text

/-! ## 1. Elements that were read -/

/-- **An operand that was read is legible**, unless it is a number too large. -/
theorem legible_of_ofLexeme {lexeme : List Char} {o : Operand}
    (h : Operand.ofLexeme isPlainName lexeme = .ok o)
    (hfinite : ∀ x, o = .number x → x.isFinite = true) : o.Legible := by
  cases o with
  | number x => exact hfinite x rfl
  | truth b => trivial
  | text body => exact legible_of_text h
  | var name =>
    obtain ⟨rfl, hname⟩ := Grammar.name_of_ofLexeme h
    -- the words for truth values are read as these
    have hword : ∀ b, name ≠ truthWord b := by
      rintro b rfl
      have htruth : Operand.ofLexeme isPlainName (truthWord b).toList = .ok (.truth b) := by
        cases b <;> rfl
      rw [htruth] at h
      cases h
    exact ⟨hname, hword true, hword false⟩

section Elements

variable {r : Registry}

/-- **An element that was read is legible.** -/
theorem legible_of_spells {lexeme : List Char} {e : Element} (h : r.grammar.Spells lexeme e)
    (hfinite : ∀ x, e = .operand (.number x) → x.isFinite = true) : e.Legible r := by
  have hheld : ∀ {α : Type} [Named α] {set : List α} {operator : α},
      OperatorSet.find? (String.ofList lexeme) set = some operator →
      OperatorSet.find? (OperatorSet.nameOf operator) set = some operator :=
    fun hf => by rw [(OperatorSet.mem_of_find? hf).2, hf]
  cases e with
  | comparison operator => exact hheld h
  | connective operator => exact hheld h
  | negation operator => exact hheld h
  | bracket b => trivial
  | operand o => exact legible_of_ofLexeme h fun x hx => hfinite x (congrArg Element.operand hx)

/-- **A name of the registry names an operator**, and no operand. -/
theorem exists_operator? {name : OperatorName} (h : name ∈ r.names) :
    ∃ e, r.grammar.operator? name.chars = some e ∧ ∀ o, e ≠ .operand o := by
  have hname : String.ofList name.chars = name.text := String.ofList_toList
  have hfound : ∀ {α : Type} [Named α] {set : List α}, name ∈ set.map Named.name →
      OperatorSet.find? name.text set ≠ none := by
    intro α _ set hm hnone
    obtain ⟨operator, ho, rfl⟩ := List.mem_map.mp hm
    exact List.find?_eq_none.mp hnone operator ho (beq_self_eq_true _)
  cases ho : r.grammar.operator? name.chars with
  | none =>
    simp only [Grammar.operator?, hname, Option.orElse_eq_orElse, Option.orElse_eq_or,
      Option.or_eq_none_iff, Option.map_eq_none_iff] at ho
    obtain ⟨hc, hk, hn⟩ := ho
    rcases List.mem_append.mp h with h | h
    · rcases List.mem_append.mp h with h | h
      · exact absurd hc (hfound h)
      · exact absurd hk (hfound h)
    · exact absurd hn (hfound h)
  | some e =>
    refine ⟨e, rfl, fun o he => ?_⟩
    subst he
    simp only [Grammar.operator?, Option.orElse_eq_orElse, Option.orElse_eq_or,
      Option.or_eq_some_iff, Option.map_eq_some_iff, reduceCtorEq, and_false, exists_false,
      or_false] at ho

/-- **A chunk of operator characters is read as the operator it names**; if it names none it is no
    operand either. -/
theorem readOperator_of_isOperatorChunk {w : List Char} (h : r.grammar.isOperatorChunk w = true)
    (hn : r.grammar.operator? w = none) :
    r.grammar.readOperator w = .error (.badName (String.ofList w)) := by
  rw [Grammar.readOperator, hn]
  rcases Bool.or_eq_true_iff.mp h with hs | hk
  · have hsymbols : ∀ c ∈ w, isSymbolChar c = true := fun c hc =>
      isSymbolChar_of_isSymbolic (List.all_eq_true.mp (Bool.and_eq_true_iff.mp hs).2 c hc)
    obtain ⟨hliteral, hname⟩ := no_form_of_symbols hsymbols
    have hread := ofLexeme_of_no_form
      (fun c hc => isQuote_of_isSymbolChar (hsymbols c (List.mem_of_mem_head? hc))) hliteral hname
    exact map_eq_error_iff.mpr hread
  · -- a keyword names an operator
    obtain ⟨name, hm, hname⟩ := List.any_eq_true.mp hk
    obtain ⟨e, he, -⟩ := exists_operator? (r := r) hm
    rw [← beq_iff_eq.mp (Bool.and_eq_true_iff.mp hname).2, he] at hn
    cases hn

end Elements

/-! ## 2. Fronts that were read -/

section Fronts

variable {r : Registry}

/-- What the front of a text is read as: one element, or a group. -/
theorem readFront_cases (hr : r.Distinct) {cs rest : List Char} {es : Condition}
    (h : r.grammar.readFront cs = .ok (es, rest)) :
    (∃ e, es = [e] ∧ r.grammar.readOperator (chunk cs) = .ok e) ∨
      r.grammar.isOperatorChunk (chunk cs) = false ∧
      ∃ tail behind, pieceTail (cs.dropWhile r.grammar.isLead) = some tail ∧
        tail.elements = .ok behind ∧
        es = (cs.takeWhile r.grammar.isLead).map leadElement ++ behind := by
  cases hop : r.grammar.isOperatorChunk (chunk cs) with
  | true =>
    rw [Grammar.readFront, if_pos hop] at h
    obtain ⟨e, he, hfront⟩ := map_eq_ok_iff.mp h
    cases hfront
    exact .inl ⟨e, rfl, he⟩
  | false =>
    rw [hr.plain.readFront_of_piece hop] at h
    split at h
    · cases h
    · rename_i tail htail
      obtain ⟨behind, hbehind, hfront⟩ := map_eq_ok_iff.mp h
      cases hfront
      exact .inr ⟨rfl, tail, behind, htail, hbehind, rfl⟩

theorem isOpening_leadElement (c : Char) : (leadElement c).isOpening = true := by
  unfold leadElement
  split <;> rfl

/-- The front of a text is read as elements that are written without a space. -/
theorem chained_of_readFront (hr : r.Distinct) {cs rest : List Char} {es : Condition}
    (h : r.grammar.readFront cs = .ok (es, rest)) : Condition.Chained es := by
  rcases readFront_cases hr h with ⟨e, rfl, -⟩ | ⟨-, ⟨lexeme, n, left⟩, behind, -, hbehind, rfl⟩
  · exact List.isChain_singleton e
  · have hlead : ∀ e ∈ (cs.takeWhile r.grammar.isLead).map leadElement, e.isOpening = true := by
      intro e he
      obtain ⟨c, -, rfl⟩ := List.mem_map.mp he
      exact isOpening_leadElement c
    cases lexeme with
    | none =>
      cases hbehind
      exact Group.chained ⟨_, none, n, hlead⟩
    | some lexeme =>
      rw [Tail.elements_some] at hbehind
      obtain ⟨o, -, rfl⟩ := map_eq_ok_iff.mp hbehind
      exact Group.chained ⟨_, some o, n, hlead⟩

/-- A variable that was read by itself is a chunk of the text. -/
theorem chunk_of_readFront (hr : r.Distinct) {cs rest : List Char} {name : String}
    (h : r.grammar.readFront cs = .ok ([.operand (.var name)], rest)) : chunk cs = name.toList := by
  rcases readFront_cases hr h with
    ⟨e, he, hread⟩ | ⟨-, ⟨lexeme, n, left⟩, behind, htail, hbehind, hes⟩
  · cases he
    exact (Grammar.name_of_ofLexeme (Grammar.spells_of_readOperator hread)).1
  · -- nothing stands before the name, and no bracket behind it
    have hlead : cs.takeWhile r.grammar.isLead = [] := by
      cases hl : cs.takeWhile r.grammar.isLead with
      | nil => rfl
      | cons c lead =>
        rw [hl] at hes
        have hopening := isOpening_leadElement c
        rw [← (List.cons.inj hes).1] at hopening
        cases hopening
    have hcs : cs.dropWhile r.grammar.isLead = cs := by
      have happ := List.takeWhile_append_dropWhile (p := r.grammar.isLead) (l := cs)
      rwa [hlead] at happ
    rw [hlead, List.map_nil, List.nil_append] at hes
    subst hes
    rw [hcs] at htail
    obtain ⟨hchars, hgap⟩ := tailOf_pieceTail htail
    cases lexeme with
    | none =>
      have hmem : Element.operand (.var name) ∈ List.replicate n (.bracket .closing) := by
        rw [Except.ok.inj hbehind]
        exact List.mem_cons_self
      cases List.eq_of_mem_replicate hmem
    | some lexeme =>
      rw [Tail.elements_some] at hbehind
      obtain ⟨o, ho, he⟩ := map_eq_ok_iff.mp hbehind
      obtain ⟨hvar, hclosings⟩ := List.cons.inj he
      cases hvar
      obtain rfl : n = 0 := by simpa only [List.replicate_eq_nil_iff] using hclosings
      obtain ⟨rfl, hname⟩ := Grammar.name_of_ofLexeme ho
      have hblank : ∀ c ∈ name.toList, isBlank c = false := fun c hc =>
        (isWordPart_iff.mp (isWordPart_of_isPlainName hname c hc)).1
      rw [← hchars]
      exact (chunk_append hblank hgap).1

/-- **A variable that was read by itself has the name of no operator**: the chunk would have been
    read as that. -/
theorem keyword_ne_of_readFront (hr : r.Distinct) {cs rest : List Char} {name : String}
    (h : r.grammar.readFront cs = .ok ([.operand (.var name)], rest)) {keyword : OperatorName}
    (hm : keyword ∈ r.names) : keyword.text ≠ name := by
  rintro rfl
  have hchunk : chunk cs = keyword.chars := chunk_of_readFront hr h
  obtain ⟨e, hoperator, hnot⟩ := exists_operator? hm
  rw [Grammar.readFront, hchunk, if_pos (isOperatorChunk_name hm), Grammar.readOperator,
    hoperator] at h
  exact hnot _ (List.cons.inj (Prod.mk.inj (Except.ok.inj h)).1).1

end Fronts

/-! ## 3. Conditions that were read -/

section Conditions

variable {r : Registry}

/-- Elements glued to one another stand in one group. So a group of one element is all of them, or
    none of them is in it. -/
theorem Condition.mem_splitBy_append {front more : Condition} (hfront : Chained front) {e : Element}
    (h : [e] ∈ (front ++ more).splitBy glued) : front = [e] ∨ [e] ∈ more.splitBy glued := by
  by_cases hne : front = []
  · rw [hne] at h
    exact .inr h
  · by_cases hapart : Apart front more
    · rw [splitBy_append_of_apart hne hfront hapart] at h
      exact (List.mem_cons.mp h).imp_left Eq.symm
    · -- the group goes on behind them, so that it has more than one element
      right
      simp only [Apart, not_forall, Bool.not_eq_false] at hapart
      obtain ⟨a, ha, b, hb, hglued⟩ := hapart
      obtain ⟨more, rfl⟩ := List.head?_eq_some_iff.mp hb
      obtain ⟨group, rest, hgroup, hchained, hmore, hrest⟩ := exists_front b more
      obtain ⟨d, group, rfl⟩ := List.exists_cons_of_ne_nil hgroup
      obtain rfl : b = d := (List.cons.inj hmore).1
      have hlonger : Chained (front ++ b :: group) := by
        refine List.isChain_append.mpr ⟨hfront, hchained, fun a' ha' b' hb' => ?_⟩
        cases Option.some.inj (ha.symm.trans ha')
        cases hb'
        exact hglued
      have hrest' : Apart (front ++ b :: group) rest := by
        intro a ha
        rw [List.getLast?_append_of_ne_nil _ hgroup] at ha
        exact hrest a ha
      have hne' : front ++ b :: group ≠ [] := List.append_ne_nil_of_right_ne_nil front hgroup
      rw [hmore, ← List.append_assoc, splitBy_append_of_apart hne' hlonger hrest'] at h
      rw [hmore, splitBy_append_of_apart hgroup hchained hrest]
      rcases List.mem_cons.mp h with heq | h
      · have hlength := congrArg List.length heq
        have hpos := List.length_pos_iff.mpr hne
        simp only [List.length_append, List.length_cons, List.length_nil] at hlength
        omega
      · exact List.mem_cons_of_mem _ h

/-- Where an operator's name is read as a variable, it is not written by itself. -/
theorem keyword_ne_of_readFrom (hr : r.Distinct) {cs : List Char} {es : Condition}
    (h : r.grammar.readFrom 0 cs = .ok es) {name : String}
    (hm : [.operand (.var name)] ∈ es.splitBy glued) {keyword : OperatorName}
    (hk : keyword ∈ r.names) : keyword.text ≠ name := by
  refine Grammar.readFrom_induction
    (motive := fun _ es => [.operand (.var name)] ∈ es.splitBy glued → keyword.text ≠ name)
    (fun _ hm => by cases hm) ?_ h hm
  intro gap c ds front rest more _ _ hf _ _ ih hm
  rcases Condition.mem_splitBy_append (chained_of_readFront hr hf) hm with rfl | hm
  · exact keyword_ne_of_readFront hr hf hk
  · exact ih hm

/-- **A condition that was read is legible**, unless it has numbers too large. -/
theorem legible_of_readFrom (hr : r.Distinct) {cs : List Char} {es : Condition}
    (h : r.grammar.readFrom 0 cs = .ok es)
    (hfinite : ∀ x, .operand (.number x) ∈ es → x.isFinite = true) : es.Legible r := by
  refine ⟨fun e he => ?_, fun name hm keyword hk _ => keyword_ne_of_readFrom hr h hm hk⟩
  have hspelled := Grammar.spelled_of_readFrom h
    (.inr nofun : AtGap cs ∨ OpensBehind none)
  obtain ⟨lexeme, hlexeme⟩ := hspelled.exists_lexeme he
  exact legible_of_spells hlexeme fun x hx => hfinite x (hx ▸ he)

/-- **A condition that was read is read again from its text exactly if** no run of negations stands
    by itself in it and all literals end where they were ended. -/
theorem read_render_iff (hr : r.Distinct) {text : String} {c : Condition}
    (h : r.grammar.read text = .ok c)
    (hfinite : ∀ x, .operand (.number x) ∈ c → x.isFinite = true) :
    r.grammar.read c.render = .ok c ↔ c.NoLoneRun ∧ c.LiteralsEnd := by
  obtain ⟨hread, hne⟩ := Grammar.read_eq_ok_iff.mp h
  rw [Grammar.read_eq_ok_iff, and_iff_left hne, Condition.render, String.toList_ofList]
  exact readFrom_chars_iff hr (legible_of_readFrom hr hread hfinite)

end Conditions

/-! ## 4. The default operators -/

theorem Registry.default_distinct [RegexLibrary] : Registry.default.Distinct := by
  have hname : ∀ a ∈ default.comparisons, a.name ∈ comparisonNames := fun a ha =>
    names_comparisons ▸ List.mem_map_of_mem ha
  have hconnectives : default.connectives = [.and, .or] := by rw [default_eq]
  have hnegations : default.negations = [.not] := by rw [default_eq]
  have hand : ∀ n ∈ comparisonNames, ∀ b ∈ [Connective.and, .or], n ≠ b.name := by decide
  have hnot : ∀ n ∈ comparisonNames, ∀ b ∈ [Negation.not], n ≠ b.name := by decide
  refine ⟨?_, fun a ha b hb => hand a.name (hname a ha) b (hconnectives ▸ hb),
    fun a ha b hb => hnot a.name (hname a ha) b (hnegations ▸ hb), ?_, ?_⟩
  · rw [hnegations]
    decide
  · rw [hconnectives, hnegations]
    decide
  · rw [names_default]
    decide

/-- **A condition that was read is read again from its text exactly if** no two negations or more
    stand by themselves in it and every literal in the text ends at its own quote. -/
theorem parse_render_iff [RegexLibrary] {text : String} {c : Condition} (h : parse text = .ok c)
    (hfinite : ∀ x, .operand (.number x) ∈ c → x.isFinite = true) :
    parse c.render = .ok c ↔ c.NoLoneRun ∧ c.LiteralsEnd :=
  read_render_iff Registry.default_distinct h hfinite

/-- So it is read again where no negations stand side by side and no literal ends with an unpaired
    backslash. -/
theorem parse_render_of_spread [RegexLibrary] {text : String} {c : Condition} (h : parse text = .ok c)
    (hfinite : ∀ x, .operand (.number x) ∈ c → x.isFinite = true) (hs : c.Spread)
    (hb : ∀ body, .operand (.text body) ∈ c → endsEscaped false body.toList = false) :
    parse c.render = .ok c :=
  (read_render_iff Registry.default_distinct h hfinite).mpr
    ⟨hs.noLoneRun, Condition.literalsEnd_of_forall hb⟩

/-- A condition with a run of negations before a name, and a literal that escapes its quote before
    one that does not seem to end there. -/
def Condition.edges : Condition :=
  [.negation .not, .bracket .opening, .negation .not, .negation .not, .operand (.var "ab"),
    .connective .and, .operand (.text "C:\\"), .comparison .equal, .operand (.text "x"),
    .bracket .closing]

/-- It is read again, although its text is another one. -/
theorem parse_render_edges :
    parse "! (! !ab && \"C:\\\" == 'x')" = .ok .edges ∧
      (∀ x, .operand (.number x) ∈ Condition.edges → x.isFinite = true) ∧
      Condition.edges.render = "!(!!ab && 'C:\\' == 'x')" ∧
      parse Condition.edges.render = .ok .edges := by
  have hread : parse "! (! !ab && \"C:\\\" == 'x')" = .ok .edges := rfl
  have hfinite : ∀ x, .operand (.number x) ∈ Condition.edges → x.isFinite = true := by
    intro x hx
    simp only [Condition.edges, List.mem_cons, reduceCtorEq, Element.operand.injEq, false_or,
      List.not_mem_nil] at hx
  have hrun : Condition.edges.NoLoneRun := by
    have hgroups : Condition.edges.splitBy glued =
        [[.negation .not, .bracket .opening, .negation .not, .negation .not,
          .operand (.var "ab")], [.connective .and], [.operand (.text "C:\\")],
          [.comparison .equal], [.operand (.text "x"), .bracket .closing]] := rfl
    rw [Condition.NoLoneRun, hgroups]
    simp only [List.forall_mem_cons]
    refine ⟨?_, ?_, ?_, ?_, ?_, ?_⟩
    all_goals
      intro _ h
      cases h
  have hend : Condition.edges.LiteralsEnd := by
    simp only [Condition.edges, Condition.literalsEnd_cons, reduceCtorEq, false_implies,
      implies_true, true_and, Element.operand.injEq, forall_eq']
    refine ⟨trivial, fun _ => ⟨fun before rest hcut => ?_, fun before rest hbody => ?_⟩,
      fun he => absurd he (by decide), Condition.literalsEnd_nil⟩
    · -- the next quote opens the other literal, and no piece ends behind it
      have hopens : some (" == ".toList, "x')".toList) = some (before, rest) := hcut
      cases hopens
      rfl
    · have hin : quoteFor "C:\\" ∈ "C:\\".toList := by
        rw [hbody]
        exact List.mem_append_right before List.mem_cons_self
      exact absurd hin (by decide)
  exact ⟨hread, hfinite, rfl, (parse_render_iff hread hfinite).mpr ⟨hrun, hend⟩⟩

/-- **Two conditions that are not read again**: two negations by themselves, and two literals of
    which the first escapes its quote and is written between the quotes of the second. -/
theorem parse_render_ne :
    (parse "! !" = .ok [.negation .not, .negation .not] ∧
      Condition.render [.negation .not, .negation .not] = "!!" ∧
      parse "!!" = .error (.badName "!!")) ∧
    parse "\"a\\\" == ' x'"
        = .ok [.operand (.text "a\\"), .comparison .equal, .operand (.text " x")] ∧
      Condition.render [.operand (.text "a\\"), .comparison .equal, .operand (.text " x")]
        = "'a\\' == ' x'" ∧
      parse "'a\\' == ' x'" = .error (.unknownElement "x'") :=
  ⟨⟨rfl, rfl, rfl⟩, rfl, rfl, rfl⟩

end Verdict
