import Verdict.Report
import Verdict.Proofs.Appending
import Verdict.Proofs.Dependence
import Verdict.Proofs.Spelling

/-!
# Where a report points

A fault names a text and not the place where it arose, and a report searches for the text in the
source. The search goes from left to right and does not look for overlaps, so it could pass over the
place in question, or find the text inside a longer lexeme. It does neither, for all faults with the
default operators that name an element, a name or an undefined variable.

Such a text stands by itself in the source: a chunk stands between blanks, and a variable stands
behind a blank, a bracket or `!`, and before a blank or a closing bracket. The character before it
cannot be one of its own, so no occurrence before it reaches into it and the search comes by.

* `separated_of_parse`, `separated_of_evaluate` -- the text stands by itself where it stands.
* `exists_found`, `marks_of_separated` -- a text that stands by itself is found by itself.
* `spanIn_marks` -- **a report marks the text its fault names, and nothing else.**
-/

namespace Verdict

open Text

/-! ## 1. Texts that stand by themselves -/

/-- What is before a stretch of a text and what is behind it: an end of the text, or a character that
    a lexeme may stand beside. -/
structure Separated (before after : List Char) : Prop where
  before : ∀ c, before.getLast? = some c → separates c = true
  after : ∀ c, after.head? = some c → separates c = true

theorem separates_iff {c : Char} :
    separates c = true ↔ isBlank c = true ∨ c = '(' ∨ c = ')' ∨ c = '!' := by
  simp only [separates, Bool.or_eq_true, beq_iff_eq, or_assoc]

theorem separates_of_isBlank {c : Char} (h : isBlank c = true) : separates c = true :=
  separates_iff.mpr (.inl h)

/-- No character of a word with the form of an operand is one that a lexeme may stand beside. -/
theorem separates_of_form {w : List Char} (h : isLiteralWord w = true ∨ isPlainName w = true)
    {c : Char} (hc : c ∈ w) : separates c = false := by
  have hchar := char_of_form h hc
  have hpart : isWordPart c = true := by
    rcases hchar with (halnum | rfl | rfl) | rfl
    · exact isWordPart_of_isAlphanum halnum
    · decide
    · decide
    · decide
  refine Bool.eq_false_iff.mpr fun hs => ?_
  rcases separates_iff.mp hs with hb | rfl | rfl | rfl
  · rw [(isWordPart_iff.mp hpart).1] at hb
    cases hb
  · exact absurd hchar (by decide)
  · exact absurd hpart (by decide)
  · exact absurd hchar (by decide)

theorem separates_of_isPlainName {w : List Char} (h : isPlainName w = true) {c : Char}
    (hc : c ∈ w) : separates c = false :=
  separates_of_form (.inr h) hc

/-! ## 2. What a reading is at fault for -/

/-- An element or a name that a front is at fault for is the whole chunk. -/
theorem Lexing.text_of_front [RegexLibrary] {cs : List Char} {text : String} {x : Fault}
    (h : front cs = .error x) (hx : x = .unknownElement text ∨ x = .badName text) :
    text = String.ofList (chunk cs) := by
  have hliteral : ∀ q ds, literalFront (chunk cs) q ds = .error x →
      text = String.ofList (chunk cs) := by
    intro q ds hl
    unfold literalFront at hl
    split at hl
    · cases hl
      rcases hx with hx | hx <;> cases hx
      rfl
    · split at hl
      · cases hl
        rcases hx with hx | hx <;> cases hx
      · cases hl
  have hword : ∀ ds behind, wordFront (chunk cs) ds behind = .error x →
      text = String.ofList (chunk cs) := by
    intro ds behind hw
    simp only [wordFront] at hw
    split at hw
    · cases hw
    · split at hw
      · cases hw
      · cases hw
        rcases hx with hx | hx <;> cases hx
        rfl
  simp only [front] at h
  split at h
  · split at h
    · cases h
    · cases h
      rcases hx with hx | hx <;> cases hx
      rfl
  · split at h
    · cases h
    · simp only [pieceFront] at h
      have hbody := map_eq_error_iff.mp h
      split at hbody
      · exact hliteral _ _ hbody
      · exact hword _ _ hbody

/-- A fault that names a text is one of the reading itself, and not that there are no elements. -/
theorem readFrom_of_parse [RegexLibrary] {source text : String} {x : Fault}
    (h : parse source = .error x)
    (hx : x.offendingText? = some text) : Grammar.default.readFrom 0 source.toList = .error x := by
  rw [parse, Grammar.read] at h
  rcases bind_eq_error_iff.mp h with h | ⟨es, -, h⟩
  · exact h
  · split at h
    · cases h
      cases hx
    · cases h

/-- **What a reading is at fault for stands by itself**, and the character before it is a blank. -/
theorem separated_of_parse [RegexLibrary] {source text : String} {x : Fault}
    (h : parse source = .error x) (hx : x = .unknownElement text ∨ x = .badName text) :
    text.toList ≠ [] ∧ ∃ before after, before ++ (text.toList ++ after) = source.toList ∧
      Separated before after ∧ ∀ c, before.getLast? = some c → c ∉ text.toList := by
  have hnames : x.offendingText? = some text := by
    rcases hx with rfl | rfl <;> rfl
  have hfrom := readFrom_of_parse h hnames
  obtain ⟨before, c, ds, hcs, hc, hblank, hfront⟩ := Grammar.exists_front_of_error hfrom
  rw [Lexing.front_eq_readFront hc] at hfront
  have htext : text.toList = chunk (c :: ds) := by
    rw [Lexing.text_of_front hfront hx, String.toList_ofList]
  refine ⟨?_, before, afterChunk (c :: ds), ?_, ⟨?_, ?_⟩, ?_⟩
  · rw [htext, (chunk_cons_of_not_blank hc ds).1]
    exact List.cons_ne_nil _ _
  · rw [htext, chunk_append_afterChunk, hcs]
  · exact fun b hb => separates_of_isBlank (hblank b hb)
  · exact fun b hb => separates_of_isBlank (atGap_afterChunk _ b hb)
  · intro b hb hm
    rw [htext] at hm
    have hn := Grammar.not_blank_of_mem_chunk hm
    rw [hblank b hb] at hn
    cases hn

/-! ## 3. What an evaluation is at fault for -/

namespace Grammar

/-- The lexeme of an element that opens is a bracket or `!`. -/
theorem separates_of_isOpening [RegexLibrary] {lexeme : List Char} {e : Element}
    (he : e.isOpening = true)
    (h : Grammar.default.Spells lexeme e) : ∃ c, lexeme = [c] ∧ separates c = true := by
  cases e with
  | bracket b =>
    cases b with
    | opening => exact ⟨'(', h, by decide⟩
    | closing => cases he
  | negation operator =>
    obtain ⟨hm, hname⟩ := OperatorSet.mem_of_find? h
    have hsymbol : operator.name.isSymbol = true :=
      (OperatorName.isSymbol_eq_not_isKeyword _).trans he
    obtain rfl := Lexing.default_plain.eq_not (mem_symbolNegations.mpr ⟨hm, hsymbol⟩)
    have hlexeme : lexeme = ['!'] := by
      rw [← String.toList_ofList (l := lexeme), ← hname]
      rfl
    exact ⟨'!', hlexeme, by decide⟩
  | _ => cases he

/-- Behind an operand there is a blank, a closing bracket or the end of the text. -/
theorem SpelledBehind.separates_head? [RegexLibrary] {o : Operand} {cs : List Char} {es : Condition}
    (h : Grammar.default.SpelledBehind (some (.operand o)) cs es) {c : Char}
    (hc : cs.head? = some c) : separates c = true := by
  have hblank : ∀ {gap : List Char}, AllBlank gap → gap.head? = some c → separates c = true :=
    fun hgap hd => separates_of_isBlank (hgap c (List.mem_of_mem_head? hd))
  cases h with
  | gap hgap => exact hblank hgap hc
  | @element _ gap lexeme rest e es hgap htouch hlexeme hrest =>
    cases gap with
    | cons b gap => exact hblank hgap hc
    | nil =>
      rcases htouch rfl with hopens | rfl
      · cases hopens _ rfl
      · obtain rfl : lexeme = [')'] := hlexeme
        cases hc
        decide

/-- **An operand stands by itself**, and where it begins something may begin. -/
theorem SpelledBehind.exists_place [RegexLibrary] {last : Option Element} {cs : List Char}
    {es : Condition}
    (h : Grammar.default.SpelledBehind last cs es) {o : Operand} (hm : .operand o ∈ es) :
    ∃ before lexeme after, before ++ (lexeme ++ after) = cs ∧
      Grammar.default.Spells lexeme (.operand o) ∧ Separated before after ∧
        (before = [] → OpensBehind last) := by
  induction h with
  | gap => cases hm
  | @element last gap lexeme rest e es hgap htouch hlexeme hrest ih =>
    rcases List.mem_cons.mp hm with rfl | hm
    · refine ⟨gap, lexeme, rest, rfl, hlexeme, ⟨?_, fun c => hrest.separates_head?⟩, fun hnil => ?_⟩
      · exact fun c hc => separates_of_isBlank (hgap c (List.mem_of_getLast? hc))
      · exact (htouch hnil).resolve_right nofun
    · obtain ⟨before, lexeme', after, rfl, hlexeme', hsep, hopens⟩ := ih hm
      refine ⟨gap ++ (lexeme ++ before), lexeme', after, ?_, hlexeme', ⟨?_, hsep.after⟩, ?_⟩
      · simp only [List.append_assoc]
      · intro c hc
        cases before with
        | cons b before =>
          rw [← List.append_assoc, List.getLast?_append_of_ne_nil _ (List.cons_ne_nil _ _)] at hc
          exact hsep.before c hc
        | nil =>
          obtain ⟨d, rfl, hd⟩ := separates_of_isOpening (hopens rfl _ rfl) hlexeme
          rw [List.append_nil, List.getLast?_concat] at hc
          cases hc
          exact hd
      · intro hnil
        obtain ⟨-, hnil⟩ := List.append_eq_nil_iff.mp hnil
        obtain ⟨rfl, rfl⟩ := List.append_eq_nil_iff.mp hnil
        obtain ⟨d, hd, -⟩ := separates_of_isOpening (hopens rfl _ rfl) hlexeme
        cases hd

end Grammar

theorem spelled_of_parse [RegexLibrary] {source : String} {c : Condition}
    (h : parse source = .ok c) : Grammar.default.SpelledBehind none source.toList c :=
  Grammar.spelled_of_readFrom (Grammar.read_eq_ok_iff.mp h).1
    (.inr nofun)

/-- The comparisons in a condition that is read are the default ones. -/
theorem mem_defaults_of_parse [RegexLibrary] {source : String} {c : Condition}
    (h : parse source = .ok c)
    {operator : Comparison} (hm : .comparison operator ∈ c) : operator ∈ Comparison.defaults := by
  obtain ⟨lexeme, hlexeme⟩ := (spelled_of_parse h).exists_lexeme hm
  have hfind : Registry.default.comparison? (String.ofList lexeme)
      = Comparison.defaults.find? (·.name.chars == lexeme) :=
    Lexing.find?_of_nodup (l := Comparison.defaults) Lexing.nodup_comparisons lexeme
  exact List.mem_of_find?_eq_some (hfind.symm.trans hlexeme)

/-- An undefined variable at fault is one of the condition: a value for any other name would change
    nothing, and yet the name would not be undefined any more. -/
theorem mem_of_undefined {c : Condition} {lookup : Lookup} {name : String}
    (hrules : ∀ operator, .comparison operator ∈ c → operator.rule.NeverUndefined)
    (h : c.evaluate lookup = .error (.undefinedVariable name)) : .operand (.var name) ∈ c := by
  refine Classical.byContradiction fun hout => ?_
  have hsame : c.evaluate lookup = c.evaluate (lookup.bind name "") := by
    refine Condition.evaluate_congr fun other hm => (Lookup.bind_of_ne lookup "" ?_).symm
    rintro rfl
    exact hout hm
  have hnone := Condition.undefined_of_evaluate hrules (hsame ▸ h)
  rw [Lookup.bind_self] at hnone
  cases hnone

/-- An undefined variable at fault is one of the condition that is read, if it is evaluated. -/
theorem mem_of_evaluate [RegexLibrary] {source name : String} {c : Condition} {lookup : Lookup}
    (h : parse source = .ok c) (hx : c.evaluate lookup = .error (.undefinedVariable name)) :
    .operand (.var name) ∈ c :=
  mem_of_undefined
    (fun _ hm => Condition.neverUndefined_of_default (mem_defaults_of_parse h hm)) hx

/-- **An undefined variable stands by itself**, and the character before it is none of its own. -/
theorem separated_of_evaluate [RegexLibrary] {source name : String} {c : Condition}
    {lookup : Lookup}
    (h : parse source = .ok c) (hx : c.evaluate lookup = .error (.undefinedVariable name)) :
    name.toList ≠ [] ∧ ∃ before after, before ++ (name.toList ++ after) = source.toList ∧
      Separated before after ∧ ∀ c, before.getLast? = some c → c ∉ name.toList := by
  obtain ⟨before, lexeme, after, hcs, hlexeme, hsep, -⟩ :=
    (spelled_of_parse h).exists_place (mem_of_evaluate h hx)
  obtain ⟨rfl, hname⟩ := Grammar.name_of_ofLexeme hlexeme
  refine ⟨?_, before, after, hcs, hsep, fun b hb hn => ?_⟩
  · intro hnil
    rw [hnil] at hname
    cases hname
  · have hb' := separates_of_isPlainName hname hn
    rw [hsep.before b hb] at hb'
    cases hb'

/-! ## 4. The search -/

theorem standsAlone_iff {cs : List Char} {start stop : Nat} : standsAlone cs start stop = true ↔
    (∀ k c, k + 1 = start → cs[k]? = some c → separates c = true) ∧
      ∀ c, cs[stop]? = some c → separates c = true := by
  simp only [standsAlone, Bool.and_eq_true, Bool.or_eq_true, beq_iff_eq, Option.all_eq_true]
  refine and_congr_left fun _ => ?_
  cases start with
  | zero => exact ⟨fun _ k c hk => absurd hk (Nat.succ_ne_zero k), fun _ => .inl rfl⟩
  | succ start =>
    constructor
    · intro h k c hk
      obtain rfl : k = start := Nat.succ.inj hk
      exact h.resolve_left (Nat.succ_ne_zero k) c
    · exact fun h => .inr fun c => h start c rfl

/-- A stretch between what separates lexemes stands by itself. -/
theorem Separated.standsAlone {before after : List Char} (h : Separated before after)
    (needle : List Char) : Verdict.standsAlone (before ++ (needle ++ after)) before.length
      (before.length + needle.length) = true := by
  refine standsAlone_iff.mpr ⟨fun k c hk hc => h.before c ?_, fun c hc => h.after c ?_⟩
  · rw [List.getElem?_append_left (by omega)] at hc
    rw [List.getLast?_eq_getElem?, ← hk, Nat.add_sub_cancel, hc]
  · rw [← List.append_assoc, List.getElem?_append_right (by simp), List.length_append,
      Nat.sub_self] at hc
    rw [List.head?_eq_getElem?, hc]

/-- **What a span should be**: a stretch of the source that is the text, and stands between the ends
    of the source, blanks, brackets and `!`. -/
structure Span.Marks (span : Span) (source text : String) : Prop where
  start_lt_stop : span.start < span.stop
  stop_le : span.stop ≤ source.toList.length
  chars : (source.toList.drop span.start).take (span.stop - span.start) = text.toList
  before : ∀ k c, k + 1 = span.start → source.toList[k]? = some c →
    isBlank c = true ∨ c = '(' ∨ c = ')' ∨ c = '!'
  behind : ∀ c, source.toList[span.stop]? = some c →
    isBlank c = true ∨ c = '(' ∨ c = ')' ∨ c = '!'

/-- A text that is found stands by itself there. -/
theorem exists_separated_of_places {needle cs : List Char} (hne : needle ≠ []) {k : Nat}
    (hk : k ∈ places needle cs) (halone : standsAlone cs k (k + needle.length) = true) :
    ∃ before after, before ++ (needle ++ after) = cs ∧ before.length = k ∧
      Separated before after := by
  obtain ⟨after, hafter⟩ := prefix_drop_of_mem_places hk
  have hle : k ≤ cs.length := Nat.le_of_add_right_le (le_length_of_mem_places hne hk)
  have hlen : (cs.take k).length = k := List.length_take_of_le hle
  have hcs : cs.take k ++ (needle ++ after) = cs := by rw [hafter, List.take_append_drop]
  obtain ⟨hbefore, hbehind⟩ := standsAlone_iff.mp halone
  refine ⟨cs.take k, after, hcs, hlen, fun c hc => ?_, fun c hc => hbehind c ?_⟩
  · cases k with
    | zero => cases hc
    | succ k =>
      refine hbefore k c rfl ?_
      rw [List.getLast?_eq_getElem?, hlen, Nat.add_sub_cancel] at hc
      rw [← hc, List.getElem?_take_of_lt (Nat.lt_succ_self k)]
  · rw [← hcs, ← List.append_assoc, List.getElem?_append_right (by rw [List.length_append, hlen]),
      List.length_append, hlen, Nat.sub_self, ← List.head?_eq_getElem?, hc]

/-- **What a report marks**: the whole source, or a place where the text stands by itself. -/
theorem spanIn_cases {source text : String} {x : Fault} (hx : x.offendingText? = some text) :
    x.spanIn source = ⟨0, source.toList.length⟩ ∨
      ∃ before after, before ++ (text.toList ++ after) = source.toList ∧ Separated before after ∧
        x.spanIn source = ⟨before.length, before.length + text.toList.length⟩ := by
  simp only [Fault.spanIn, hx]
  split
  · exact .inl rfl
  · rename_i hne
    rw [List.isEmpty_iff] at hne
    split
    · rename_i start hf
      have halone : standsAlone source.toList start (start + text.toList.length) = true :=
        List.find?_some (p := fun start => standsAlone source.toList start (start + _)) hf
      obtain ⟨before, after, hcs, rfl, hsep⟩ :=
        exists_separated_of_places hne (List.mem_of_find?_eq_some hf) halone
      exact .inr ⟨before, after, hcs, hsep, rfl⟩
    · exact .inl rfl

/-- **A text that stands by itself is found**, there or before, if the character before it is none of
    its own. -/
theorem exists_found {source text : String} {x : Fault} (hx : x.offendingText? = some text)
    (hne : text.toList ≠ []) {before after : List Char}
    (hcs : before ++ (text.toList ++ after) = source.toList) (hsep : Separated before after)
    (hout : ∀ c, before.getLast? = some c → c ∉ text.toList) :
    ∃ front behind, front ++ (text.toList ++ behind) = source.toList ∧ Separated front behind ∧
      x.spanIn source = ⟨front.length, front.length + text.toList.length⟩ ∧
      front.length ≤ before.length := by
  have hplace : before.length ∈ places text.toList source.toList :=
    hcs ▸ mem_places_append hne hout after
  have halone : standsAlone source.toList before.length (before.length + text.toList.length) = true :=
    hcs ▸ hsep.standsAlone text.toList
  simp only [Fault.spanIn, hx]
  rw [if_neg (by rw [List.isEmpty_iff]; exact hne)]
  cases hf : (places text.toList source.toList).find? fun start =>
      standsAlone source.toList start (start + text.toList.length) with
  | none => exact absurd halone (List.find?_eq_none.mp hf _ hplace)
  | some start =>
    have halone' : standsAlone source.toList start (start + text.toList.length) = true :=
      List.find?_some (p := fun start => standsAlone source.toList start (start + _)) hf
    obtain ⟨front, behind, hcs', rfl, hsep'⟩ :=
      exists_separated_of_places hne (List.mem_of_find?_eq_some hf) halone'
    exact ⟨front, behind, hcs', hsep', rfl, le_of_find?_places hf hplace halone⟩

/-- It is marked by itself. -/
theorem marks_of_separated {source text : String} {x : Fault} (hx : x.offendingText? = some text)
    (hne : text.toList ≠ []) {before after : List Char}
    (hcs : before ++ (text.toList ++ after) = source.toList) (hsep : Separated before after)
    (hout : ∀ c, before.getLast? = some c → c ∉ text.toList) :
    (x.spanIn source).Marks source text := by
  obtain ⟨front, behind, hcs', hsep', hspan, -⟩ := exists_found hx hne hcs hsep hout
  obtain ⟨hbefore, hbehind⟩ := standsAlone_iff.mp (hsep'.standsAlone text.toList)
  rw [hcs'] at hbefore hbehind
  rw [hspan]
  refine ⟨Nat.lt_add_of_pos_right (List.length_pos_iff.mpr hne), ?_, ?_, ?_, ?_⟩
  · rw [← hcs', ← List.append_assoc, ← List.length_append]
    exact (List.prefix_append _ _).length_le
  · rw [Nat.add_sub_cancel_left, ← hcs', List.drop_left, List.take_left]
  · exact fun k c hk hc => separates_iff.mp (hbefore k c hk hc)
  · exact fun c hc => separates_iff.mp (hbehind c hc)

/-- **A report marks the text its fault names**: what reading the source is at fault for, if it is an
    element or a name, and the undefined variable that its evaluation is at fault for. The whole
    source is marked only when it is that text. -/
theorem spanIn_marks [RegexLibrary] {source text : String} {x : Fault}
    (h : (parse source = .error x ∧ (x = .unknownElement text ∨ x = .badName text)) ∨
      ∃ lookup c, parse source = .ok c ∧ c.evaluate lookup = .error x ∧
        x = .undefinedVariable text) :
    (x.spanIn source).Marks source text ∧
      (x.spanIn source = ⟨0, source.toList.length⟩ → source = text) := by
  have hmarks : (x.spanIn source).Marks source text := by
    rcases h with ⟨hparse, hx⟩ | ⟨lookup, c, hparse, heval, rfl⟩
    · obtain ⟨hne, before, after, hcs, hsep, hout⟩ := separated_of_parse hparse hx
      have htext : x.offendingText? = some text := by
        rcases hx with rfl | rfl <;> rfl
      exact marks_of_separated htext hne hcs hsep hout
    · obtain ⟨hne, before, after, hcs, hsep, hout⟩ := separated_of_evaluate hparse heval
      exact marks_of_separated rfl hne hcs hsep hout
  refine ⟨hmarks, fun hwhole => ?_⟩
  have hchars := hmarks.chars
  rw [hwhole, List.drop_zero, Nat.sub_zero, List.take_length] at hchars
  exact String.toList_inj.mp hchars

/-- An element that stands in a literal before, a symbol that begins another one, and a variable
    whose name begins another name. Each is found where it stands by itself. -/
theorem spanIn_marks_second :
    (parse "ab == ' ?é' && ?é" = .error (.unknownElement "?é") ∧
      (Fault.unknownElement "?é").spanIn "ab == ' ?é' && ?é" = ⟨15, 17⟩ ∧
      ((Fault.unknownElement "?é").spanIn "ab == ' ?é' && ?é").Marks "ab == ' ?é' && ?é" "?é") ∧
    (parse "ab >= 'é' && ab = 2" = .error (.badName "=") ∧
      (Fault.badName "=").spanIn "ab >= 'é' && ab = 2" = ⟨16, 17⟩ ∧
      ((Fault.badName "=").spanIn "ab >= 'é' && ab = 2").Marks "ab >= 'é' && ab = 2" "=") ∧
    ∃ c, parse "ab-c || !(ab)" = .ok c ∧
      c.evaluate (Lookup.empty.bind "ab-c" "true") = .error (.undefinedVariable "ab") ∧
      (Fault.undefinedVariable "ab").spanIn "ab-c || !(ab)" = ⟨10, 12⟩ ∧
      ((Fault.undefinedVariable "ab").spanIn "ab-c || !(ab)").Marks "ab-c || !(ab)" "ab" := by
  have helement : parse "ab == ' ?é' && ?é" = .error (.unknownElement "?é") := by rfl
  have hsymbol : parse "ab >= 'é' && ab = 2" = .error (.badName "=") := by rfl
  refine ⟨⟨helement, by decide, ?_⟩, ⟨hsymbol, by decide, ?_⟩, _, rfl, rfl, by decide, ?_⟩
  · exact (spanIn_marks (.inl ⟨helement, .inl rfl⟩)).1
  · exact (spanIn_marks (.inl ⟨hsymbol, .inr rfl⟩)).1
  · exact (spanIn_marks (.inr ⟨Lookup.empty.bind "ab-c" "true", _, rfl, rfl, rfl⟩)).1

end Verdict
