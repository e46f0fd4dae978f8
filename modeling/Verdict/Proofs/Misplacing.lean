import Verdict.Proofs.Lexemes

/-!
# Reports that are led astray

A report searches for the text of a fault in the whole source, and a literal is as good a place as any
other: the words that stand by themselves inside one are found there. The text of a fault is never
inside a lexeme: what a reading is at fault for is behind all lexemes that were read, and an undefined
variable is a lexeme itself. So a report that points into a literal points at the wrong place.

* `holds_of_within` -- a report points into a lexeme only if the text stands by itself in there.
* `spanIn_start_lt_of_holdsApart` -- the search does not get behind a lexeme that holds the text apart.
* `exists_place_of_parse` -- what a reading is at fault for stands behind all lexemes.
* `within_literal_iff`, `spanIn_of_not_within` -- undefined variables: which literals are pointed into,
  and otherwise the first lexeme so spelled is marked.
* `spanIn_within` -- **where a report points**; `spanIn_astray` -- two that are led astray.
-/

namespace Verdict

open Text

/-! ## 1. Lexemes that hold a text -/

/-- Strictly inside the lexeme the text stands by itself. -/
def Lexeme.Holds (l : Lexeme) (source text : String) : Prop :=
  ∃ before after, before ++ (text.toList ++ after) = source.toList ∧ Separated before after ∧
    Span.Within ⟨before.length, before.length + text.toList.length⟩ l.span

/-- It does, and no occurrence before it can reach into it: the character before it is none of its
    own. -/
def Lexeme.HoldsApart (l : Lexeme) (source text : String) : Prop :=
  ∃ before after, before ++ (text.toList ++ after) = source.toList ∧ Separated before after ∧
    (∀ c, before.getLast? = some c → c ∉ text.toList) ∧
    Span.Within ⟨before.length, before.length + text.toList.length⟩ l.span

/-- **A literal that is marked inside holds the text.** -/
theorem holds_of_within {source text : String} {x : Fault} (hx : x.offendingText? = some text)
    {l : Lexeme} (h : (x.spanIn source).Within l.span) : l.Holds source text := by
  rcases spanIn_cases hx with hwhole | ⟨before, after, hcs, hsep, hspan⟩
  · rw [hwhole] at h
    exact absurd h.1 (Nat.not_lt_zero _)
  · exact ⟨before, after, hcs, hsep, hspan ▸ h⟩

/-- **A report does not come by** a lexeme that holds the text apart. -/
theorem spanIn_start_lt_of_holdsApart {source text : String} {x : Fault}
    (hx : x.offendingText? = some text) {l : Lexeme} (h : l.HoldsApart source text) :
    (x.spanIn source).start < l.span.stop := by
  obtain ⟨before, after, hcs, hsep, hout, hstart, hstop⟩ := h
  have hlt : before.length < l.span.stop := Nat.lt_of_le_of_lt (Nat.le_add_right _ _) hstop
  by_cases hne : text.toList = []
  · have hspan : (x.spanIn source).start = 0 := by
      simp only [Fault.spanIn, hx]
      rw [if_pos (by rw [hne]; rfl)]
    omega
  · obtain ⟨front, behind, -, -, hspan, hle⟩ := exists_found hx hne hcs hsep hout
    rw [hspan]
    exact Nat.lt_of_le_of_lt hle hlt

/-! ## 2. The lexemes of a source -/

/-- The lexemes of a source, and where its reading stops. -/
theorem exists_laid_of_source [RegexLibrary] (source : String) : ∃ stop,
    Lexing.Laid [] source.toList (Grammar.default.lexemes source) stop ∧
      ∀ x, Grammar.default.readFrom 0 source.toList = .error x ↔ ∃ s, stop = some s ∧ s.fault = x :=
  Lexing.exists_laid [] source.toList

theorem behind_nil {cs : List Char} : Lexing.Behind [] ∨ AtGap cs := .inl nofun

/-- A lexeme stands by itself where it stands. -/
theorem exists_separated_of_lexeme [RegexLibrary] {source : String} {l : Lexeme}
    (hl : l ∈ Grammar.default.lexemes source) :
    ∃ before after, before ++ (l.chars ++ after) = source.toList ∧ before.length = l.place ∧
      Separated before after := by
  obtain ⟨stop, hlaid, -⟩ := exists_laid_of_source source
  exact hlaid.exists_separated behind_nil hl

/-- Of two lexemes, the one that begins before the other ends before it. -/
theorem stop_le_of_place_lt [RegexLibrary] {source : String} {l m : Lexeme}
    (hl : l ∈ Grammar.default.lexemes source) (hm : m ∈ Grammar.default.lexemes source)
    (h : l.place < m.place) : l.span.stop ≤ m.place := by
  obtain ⟨stop, hlaid, -⟩ := exists_laid_of_source source
  have hsorted := List.pairwise_iff_getElem.mp hlaid.pairwise
  obtain ⟨i, hi, rfl⟩ := List.getElem_of_mem hl
  obtain ⟨j, hj, rfl⟩ := List.getElem_of_mem hm
  rcases Nat.lt_trichotomy i j with hij | rfl | hji
  · exact hsorted i j hi hj hij
  · exact absurd h (Nat.lt_irrefl _)
  · have hle := hsorted j i hj hi hji
    simp only [Lexeme.span] at hle
    omega

/-- Where the name of a variable stands by itself: a lexeme, or a stretch strictly inside a literal. -/
theorem cases_of_plainName [RegexLibrary] {source : String} {c : Condition}
    (h : parse source = .ok c) {v before after : List Char} (hv : isPlainName v = true)
    (hcs : before ++ (v ++ after) = source.toList) (hsep : Separated before after) :
    ⟨before.length, v⟩ ∈ Grammar.default.lexemes source ∨
      ∃ l ∈ Grammar.default.lexemes source, l.isLiteral = true ∧
        (Span.mk before.length (before.length + v.length)).Within l.span := by
  obtain ⟨stop, hlaid, hstop⟩ := exists_laid_of_source source
  have hnone : stop = none := by
    cases stop with
    | none => rfl
    | some s =>
      have herror := (hstop s.fault).mpr ⟨s, rfl, rfl⟩
      have hread : Grammar.default.readFrom 0 source.toList = .ok c :=
        (Grammar.read_eq_ok_iff.mp h).1
      rw [hread] at herror
      cases herror
  have hcases := hlaid.cases_of_name hnone hv hcs.symm (by rwa [List.nil_append])
  rwa [List.length_nil, Nat.zero_add] at hcases

/-! ## 3. What a reading is at fault for, once more -/

theorem text_of_ofLexeme {isName : List Char → Bool} {w : List Char} {x : Fault}
    (h : Operand.ofLexeme isName w = .error x) : x.offendingText? = some (String.ofList w) := by
  have hread := Operand.classified isName w
  rw [h] at hread
  cases hread with
  | badQuotation => rfl
  | badName => rfl

/-- **What a front is at fault for** is its chunk, or the operand of its piece. -/
theorem exists_text_of_front [RegexLibrary] {c : Char} {ds : List Char} {x : Fault}
    (h : Grammar.default.readFront (c :: ds) = .error x) : ∃ pre text after,
      x.offendingText? = some (String.ofList text) ∧ pre ++ (text ++ after) = c :: ds ∧
        (∀ d ∈ pre, separates d = true) ∧ ∀ d, after.head? = some d → separates d = true := by
  have hchunk : chunk (c :: ds) ++ afterChunk (c :: ds) = c :: ds := chunk_append_afterChunk _
  have hbehind : ∀ d, (afterChunk (c :: ds)).head? = some d → separates d = true :=
    fun d hd => separates_of_isBlank (atGap_afterChunk _ d hd)
  by_cases hop : Grammar.default.isOperatorChunk (chunk (c :: ds)) = true
  · rw [Grammar.readFront, if_pos hop] at h
    have hread := map_eq_error_iff.mp h
    rw [Grammar.readOperator] at hread
    split at hread
    · cases hread
    · exact ⟨[], _, _, text_of_ofLexeme (map_eq_error_iff.mp hread), hchunk,
        List.forall_mem_nil _, hbehind⟩
  · rw [Lexing.default_plain.readFront_of_piece (Bool.eq_false_iff.mpr hop)] at h
    split at h
    · cases h
      exact ⟨[], _, _, rfl, hchunk, List.forall_mem_nil _, hbehind⟩
    · rename_i tail hfinish
      obtain ⟨hchars, hrest⟩ := tailOf_pieceTail hfinish
      have helements := map_eq_error_iff.mp h
      rw [Tail.elements] at helements
      cases hw : tail.lexeme with
      | none =>
        rw [hw] at helements
        cases helements
      | some w =>
        rw [hw] at helements
        rw [Tail.chars, hw, Option.getD_some] at hchars
        refine ⟨(c :: ds).takeWhile Grammar.default.isLead, w, _,
          text_of_ofLexeme (map_eq_error_iff.mp helements), ?_, Lexing.separates_of_mem_lead _,
          fun d => Lexing.separates_head? (Lexing.separates_of_mem_closings tail.closing) hrest⟩
        rw [hchars, List.takeWhile_append_dropWhile]

/-- **What a reading is at fault for stands behind all lexemes.** -/
theorem exists_place_of_parse [RegexLibrary] {source text : String} {x : Fault}
    (h : parse source = .error x) (hx : x.offendingText? = some text) : ∃ before after,
      before ++ (text.toList ++ after) = source.toList ∧ Separated before after ∧
        ∀ l ∈ Grammar.default.lexemes source, l.span.stop ≤ before.length := by
  obtain ⟨stop, hlaid, hstop⟩ := exists_laid_of_source source
  obtain ⟨s, rfl, rfl⟩ := (hstop x).mp (readFrom_of_parse h hx)
  obtain ⟨hcs, -, hbehind, hls, c, ds, hfront, hc, hread⟩ := hlaid.stopped behind_nil rfl
  rw [hfront] at hread
  obtain ⟨pre, word, after, htext, hcut, hpre, hafter⟩ := exists_text_of_front hread
  obtain rfl : String.ofList word = text := Option.some.inj (htext.symm.trans hx)
  rw [String.toList_ofList]
  refine ⟨s.before ++ pre, after, ?_, ⟨?_, hafter⟩, fun l hl => ?_⟩
  · rw [List.append_assoc, hcut, ← hfront, hcs, List.nil_append]
  · exact Lexing.Behind.append (fun _ => hbehind) hpre
  · exact Nat.le_trans (hls l hl) (by rw [List.length_append]; omega)

/-! ## 4. Reports of undefined variables -/

section Undefined

variable {source name : String} {c : Condition} {lookup : Lookup}

/-- An evaluation names undefined variables alone. -/
theorem eq_undefined_of_evaluate [RegexLibrary] (h : parse source = .ok c) {x : Fault}
    (hx : c.evaluate lookup = .error x) {text : String} (htext : x.offendingText? = some text) :
    x = .undefinedVariable text := by
  cases Condition.arises_of_evaluate hx with
  | undefined =>
    cases htext
    rfl
  | rule hm hrule =>
    rw [Condition.offendingText?_of_default (mem_defaults_of_parse h hm) hrule] at htext
    cases htext
  | shape hnone =>
    rw [hnone] at htext
    cases htext

/-- **The name of an undefined variable is found**, at the first place where it stands by itself. -/
theorem exists_first_of_evaluate [RegexLibrary] (h : parse source = .ok c)
    (hx : c.evaluate lookup = .error (.undefinedVariable name)) :
    ∃ before after, before ++ (name.toList ++ after) = source.toList ∧ Separated before after ∧
      (Fault.undefinedVariable name).spanIn source
        = ⟨before.length, before.length + name.toList.length⟩ ∧
      ∀ before' after', before' ++ (name.toList ++ after') = source.toList →
        Separated before' after' → before.length ≤ before'.length := by
  have hname : isPlainName name.toList = true := (spelled_of_parse h).isName (mem_of_evaluate h hx)
  have hout : ∀ {before after : List Char}, Separated before after →
      ∀ d, before.getLast? = some d → d ∉ name.toList := by
    intro before after hsep d hd hm
    have hs := separates_of_isPlainName hname hm
    rw [hsep.before d hd] at hs
    cases hs
  have hne := Lexing.ne_nil_of_isPlainName hname
  obtain ⟨-, _, _, hcs, hsep, -⟩ := separated_of_evaluate h hx
  obtain ⟨before, after, hcs, hsep, hspan, -⟩ :=
    exists_found (x := .undefinedVariable name) rfl hne hcs hsep (hout hsep)
  refine ⟨before, after, hcs, hsep, hspan, fun before' after' hcs' hsep' => ?_⟩
  obtain ⟨front, -, -, -, hspan', hle⟩ :=
    exists_found (x := .undefinedVariable name) rfl hne hcs' hsep' (hout hsep')
  have hstart := congrArg Span.start (hspan.symm.trans hspan')
  exact Nat.le_trans (Nat.le_of_eq hstart) hle

/-- **When a literal is marked inside**: one that holds the name is before every lexeme so spelled. -/
theorem within_literal_iff [RegexLibrary] (h : parse source = .ok c)
    (hx : c.evaluate lookup = .error (.undefinedVariable name)) :
    (∃ l ∈ Grammar.default.lexemes source, l.isLiteral = true ∧
        ((Fault.undefinedVariable name).spanIn source).Within l.span) ↔
      ∃ l ∈ Grammar.default.lexemes source, l.isLiteral = true ∧ l.Holds source name ∧
        ∀ m ∈ Grammar.default.lexemes source, m.chars = name.toList → l.span.stop ≤ m.place := by
  have hname : isPlainName name.toList = true := (spelled_of_parse h).isName (mem_of_evaluate h hx)
  obtain ⟨before, after, hcs, hsep, hspan, hfirst⟩ := exists_first_of_evaluate h hx
  rw [hspan]
  constructor
  · intro hmarked
    obtain ⟨l, hl, hliteral, hin⟩ := hmarked
    refine ⟨l, hl, hliteral, ⟨before, after, hcs, hsep, hin⟩, fun m hm hspelled => ?_⟩
    obtain ⟨before', after', hcs', hplace, hsep'⟩ := exists_separated_of_lexeme hm
    rw [hspelled] at hcs'
    have hle := hfirst before' after' hcs' hsep'
    rw [hplace] at hle
    exact stop_le_of_place_lt hl hm (Nat.lt_of_lt_of_le hin.1 hle)
  · intro hholds
    obtain ⟨l, hl, -, ⟨before', after', hcs', hsep', hin⟩, hall⟩ := hholds
    have hle := hfirst before' after' hcs' hsep'
    refine (cases_of_plainName h hname hcs hsep).resolve_left fun hm => ?_
    have hstop : l.span.stop ≤ before.length := hall _ hm rfl
    have hlt : before'.length + name.toList.length < l.span.stop := hin.2
    omega

/-- Otherwise the first lexeme so spelled is marked. -/
theorem spanIn_of_not_within [RegexLibrary] (h : parse source = .ok c)
    (hx : c.evaluate lookup = .error (.undefinedVariable name))
    (hout : ¬ ∃ l ∈ Grammar.default.lexemes source, l.isLiteral = true ∧
      ((Fault.undefinedVariable name).spanIn source).Within l.span) :
    ∃ m ∈ Grammar.default.lexemes source, m.chars = name.toList ∧
      (Fault.undefinedVariable name).spanIn source = m.span ∧
      ∀ m' ∈ Grammar.default.lexemes source, m'.chars = name.toList → m.place ≤ m'.place := by
  have hname : isPlainName name.toList = true := (spelled_of_parse h).isName (mem_of_evaluate h hx)
  obtain ⟨before, after, hcs, hsep, hspan, hfirst⟩ := exists_first_of_evaluate h hx
  rw [hspan] at hout
  refine ⟨_, (cases_of_plainName h hname hcs hsep).resolve_right hout, rfl, hspan,
    fun m' hm' hspelled => ?_⟩
  obtain ⟨before', after', hcs', hplace, hsep'⟩ := exists_separated_of_lexeme hm'
  rw [hspelled] at hcs'
  exact Nat.le_trans (hfirst before' after' hcs' hsep') (Nat.le_of_eq hplace)

end Undefined

/-! ## 5. Where a report points -/

/-- **Where the report of a fault that names a text points.** It is strictly inside a lexeme only if the
    text stands by itself in there. That is not ruled out:

    * What a reading is at fault for is behind all the lexemes, and the report begins before the end of
      each that holds the text apart.
    * What an evaluation is at fault for is an undefined variable. A literal is marked inside if one
      holds the name before any lexeme is spelled so; otherwise the first such lexeme is marked. The
      literals are those of the condition, in its order. -/
theorem spanIn_within [RegexLibrary] {source text : String} {x : Fault}
    (hx : x.offendingText? = some text) :
    let span := x.spanIn source
    let lexemes := Grammar.default.lexemes source
    (∀ l ∈ lexemes, span.Within l.span → l.Holds source text) ∧
      (parse source = .error x →
        (∃ before after, before ++ (text.toList ++ after) = source.toList ∧
          Separated before after ∧ ∀ l ∈ lexemes, l.span.stop ≤ before.length) ∧
        ∀ l ∈ lexemes, l.HoldsApart source text → span.start < l.span.stop) ∧
      ∀ lookup c, parse source = .ok c → c.evaluate lookup = .error x →
        x = .undefinedVariable text ∧
        lexemes.filterMap Lexeme.body? = c.filterMap Element.body? ∧
        ((∃ l ∈ lexemes, l.isLiteral = true ∧ span.Within l.span) ↔
          ∃ l ∈ lexemes, l.isLiteral = true ∧ l.Holds source text ∧
            ∀ m ∈ lexemes, m.chars = text.toList → l.span.stop ≤ m.place) ∧
        ((¬ ∃ l ∈ lexemes, l.isLiteral = true ∧ span.Within l.span) →
          ∃ m ∈ lexemes, m.chars = text.toList ∧ span = m.span ∧
            ∀ m' ∈ lexemes, m'.chars = text.toList → m.place ≤ m'.place) := by
  intro span lexemes
  refine ⟨fun l _ hin => holds_of_within hx hin, fun h => ⟨exists_place_of_parse h hx, ?_⟩, ?_⟩
  · exact fun l _ hapart => spanIn_start_lt_of_holdsApart hx hapart
  · intro lookup c h heval
    obtain rfl := eq_undefined_of_evaluate h heval hx
    exact ⟨rfl, bodies_of_parse h, within_literal_iff h heval, spanIn_of_not_within h heval⟩

/-- A literal that holds the name of the variable behind it. -/
theorem spanIn_within_flag :
    (Fault.undefinedVariable "flag").offendingText? = some "flag" ∧
      ∃ c, parse "name == 'a flag b' && flag" = .ok c ∧
        c.evaluate (Lookup.empty.bind "name" "x") = .error (.undefinedVariable "flag") ∧
        ∃ l ∈ Grammar.default.lexemes "name == 'a flag b' && flag", l.isLiteral = true ∧
          l.Holds "name == 'a flag b' && flag" "flag" ∧
          ∀ m ∈ Grammar.default.lexemes "name == 'a flag b' && flag",
            m.chars = "flag".toList → l.span.stop ≤ m.place := by
  refine ⟨rfl, _, rfl, rfl, ?_⟩
  refine ((spanIn_within rfl).2.2 (Lookup.empty.bind "name" "x") _ rfl rfl).2.2.1.mp ?_
  exact ⟨⟨8, "'a flag b'".toList⟩, by decide, by decide, by decide⟩

/-- **Words in a literal are marked** in place of the variable behind it, and in place of what a reading
    is at fault for behind it. -/
theorem spanIn_astray :
    (∃ c, parse "name == 'a flag b' && flag" = .ok c ∧
      c.evaluate (Lookup.empty.bind "name" "x") = .error (.undefinedVariable "flag") ∧
      ∃ l ∈ Grammar.default.lexemes "name == 'a flag b' && flag", l.isLiteral = true ∧
        ((Fault.undefinedVariable "flag").spanIn "name == 'a flag b' && flag").Within l.span) ∧
    parse "ab == ' x* ' && x*" = .error (.unknownElement "x*") ∧
      ∃ l ∈ Grammar.default.lexemes "ab == ' x* ' && x*", l.isLiteral = true ∧
        ((Fault.unknownElement "x*").spanIn "ab == ' x* ' && x*").Within l.span := by
  refine ⟨⟨_, rfl, rfl, ⟨8, "'a flag b'".toList⟩, by decide, by decide, by decide⟩, rfl, ?_⟩
  exact ⟨⟨6, "' x* '".toList⟩, by decide, by decide, by decide⟩

end Verdict
