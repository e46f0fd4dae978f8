import Verdict.Proofs.Scanning
import Verdict.Proofs.Spelling
import Verdict.Proofs.Writing
import Verdict.Regex.Table

/-!
# Written conditions read back

The text of a condition is read as the same condition, whether it can be evaluated or not, with the
operators of any registry that gives each name one meaning and has no symbol for a negation but `!`.

The text is a sequence of groups with spaces between (`Condition.exists_group`); a group is a piece,
so one step of reading takes one group off. Two things can go wrong. A group may be taken for an
operator: it has a character that symbols do not have, and is no keyword, unless it is a run of `!`.
Or a group may be cut at the wrong place: not at its lead, since no operand begins with a character
of a lead, but at its end, if it holds a literal that ends with a backslash.

* `isOperatorChunk_group` -- only a run of `!` is a group that could be taken for an operator.
* `readFrom_group_iff` -- one step of reading, and when it takes off what was written.
* `readFrom_chars_iff` -- **exactly when the text of a condition reads back.**
* `read_render` -- **the text of a condition reads back** where none of this can go wrong.
-/

namespace Verdict

open Text

/-! ## 1. What can go wrong -/

/-- A negation by a symbol. -/
def Element.isSymbolNegation : Element → Bool
  | negation operator => operator.name.isSymbol
  | _ => false

/-- No two negations by symbols stand side by side: their symbols would run together. -/
def Condition.Spread (es : Condition) : Prop :=
  es.IsChain fun a b => ¬ (a.isSymbolNegation = true ∧ b.isSymbolNegation = true)

/-- The elements can be told by their texts, and no keyword is written as a group for a variable. -/
structure Condition.Legible (r : Registry) (c : Condition) : Prop where
  elements : ∀ e ∈ c, e.Legible r
  keywords : ∀ name, [.operand (.var name)] ∈ c.splitBy glued →
    ∀ keyword ∈ r.names, keyword.isKeyword = true → keyword.text ≠ name

/-- No group is a run of two negations or more: it would be taken for one operator. -/
def Condition.NoLoneRun (c : Condition) : Prop :=
  ∀ group ∈ c.splitBy glued, ∀ n, group ≠ List.replicate (n + 2) (.negation .not)

/-- Every operand ends where it was ended, before the text of what follows it. -/
def Condition.LiteralsEnd (c : Condition) : Prop :=
  ∀ o after, .operand o :: after <:+ c → o.EndsBefore (charsAfter (.operand o) after)

/-! ## 2. Groups -/

section Groups

variable {r : Registry}

theorem Registry.Distinct.plain (hr : r.Distinct) : r.grammar.Plain := by
  refine ⟨rfl, fun n hn hs => ?_⟩
  have hname : n.name = Negation.not.name := OperatorName.eq_of_text (hr.negations n hn hs)
  cases n
  exact congrArg Negation.mk hname

/-- An opening element is an opening bracket or `!`. -/
theorem eq_of_isOpening (hr : r.Distinct) {e : Element} (ho : e.isOpening = true)
    (he : e.Legible r) :
    e = .bracket .opening ∨ e = .negation .not ∧ Negation.not ∈ r.grammar.symbolNegations := by
  cases e with
  | bracket b => cases b with
    | opening => exact .inl rfl
    | closing => cases ho
  | negation operator =>
    have hs : operator.name.isSymbol = true := by
      rw [operator.name.isSymbol_eq_not_isKeyword]
      exact ho
    have hm := (OperatorSet.mem_of_find? he).1
    have hnot := hr.plain.negations operator hm hs
    subst hnot
    exact .inr ⟨rfl, Grammar.mem_symbolNegations.mpr ⟨hm, hs⟩⟩
  | _ => cases ho

/-- An opening element is written by one character, which stands for it in a lead. -/
theorem lead_of_chars (hr : r.Distinct) {lead : Condition}
    (ho : ∀ e ∈ lead, e.isOpening = true) (he : ∀ e ∈ lead, e.Legible r) :
    (lead.flatMap Element.chars).map leadElement = lead ∧
      ∀ c ∈ lead.flatMap Element.chars, r.grammar.isLead c = true := by
  induction lead with
  | nil => exact ⟨rfl, nofun⟩
  | cons e lead ih =>
    obtain ⟨hmap, hall⟩ := ih (fun d hd => ho d (List.mem_cons_of_mem e hd))
      (fun d hd => he d (List.mem_cons_of_mem e hd))
    have hchar : ∃ c, e.chars = [c] ∧ r.grammar.isLead c = true ∧ leadElement c = e := by
      rcases eq_of_isOpening hr (ho e List.mem_cons_self) (he e List.mem_cons_self) with
        rfl | ⟨rfl, hn⟩
      · exact ⟨'(', rfl, r.grammar.isLead_opening, rfl⟩
      · exact ⟨'!', rfl, Grammar.isLead_of_mem hn, rfl⟩
    obtain ⟨c, hc, hlead, hself⟩ := hchar
    rw [List.flatMap_cons, hc]
    refine ⟨?_, List.forall_mem_cons.mpr ⟨hlead, hall⟩⟩
    show leadElement c :: (lead.flatMap Element.chars).map leadElement = e :: lead
    rw [hself, hmap]

/-- No operand begins with a character of a lead. -/
theorem head?_operand {o : Operand} (ho : o.Legible) {c : Char} (hc : o.chars.head? = some c) :
    isQuote c = true ∨ c.isAlphanum = true ∨ c = '-' ∨ c = '.' := by
  rcases wordOf_or_text ho with hw | ⟨body, rfl⟩
  · exact .inr (hw.head c hc)
  · rw [← Option.some.inj hc]
    exact .inl (isQuote_quoteFor body)

theorem operand_legible {g : Group} (hg : ∀ e ∈ g.elements, e.Legible r) {o : Operand}
    (h : g.operand = some o) : o.Legible := hg (.operand o) (Group.mem_elements h)

theorem chars_of_operand {g : Group} {o : Operand} (h : g.operand = some o) :
    g.body.flatMap Element.chars = o.chars := by
  rw [Group.body, h]
  exact List.append_nil _

theorem chars_of_no_operand {g : Group} (h : g.operand = none) :
    g.body.flatMap Element.chars = [] := by
  rw [Group.body, h]
  rfl

theorem isLead_head?_body (hr : r.Distinct) {g : Group} (hg : ∀ e ∈ g.elements, e.Legible r)
    {rest : List Char} (hrest : AtGap rest) {c : Char}
    (hc : (g.body.flatMap Element.chars ++ (List.replicate g.closing ')' ++ rest)).head? = some c) :
    r.grammar.isLead c = false := by
  refine Bool.eq_false_iff.mpr fun hl => ?_
  have hlead : c = '(' ∨ c = '!' := (hr.plain.eq_of_isLead hl).imp_right And.left
  cases hb : g.body.flatMap Element.chars with
  | nil =>
    rw [hb] at hc
    have hpart := isWordPart_head?_closing hrest g.closing c hc
    rcases hlead with rfl | rfl
    · exact absurd hpart (by decide)
    · exact absurd hpart (by decide)
  | cons d ds =>
    cases ho : g.operand with
    | none =>
      rw [chars_of_no_operand ho] at hb
      cases hb
    | some o =>
      rw [chars_of_operand ho] at hb hc
      have hd : o.chars.head? = some c := by
        rw [hb] at hc ⊢
        exact hc
      have hhead := head?_operand (operand_legible hg ho) hd
      rcases hlead with rfl | rfl
      · exact absurd hhead (by decide)
      · exact absurd hhead (by decide)

/-- **The lead of a group** is read as its opening elements, unless the group is taken for an
    operator. -/
theorem readFront_lead (hr : r.Distinct) {g : Group} (hg : ∀ e ∈ g.elements, e.Legible r)
    {rest : List Char} (hrest : AtGap rest)
    (hop : r.grammar.isOperatorChunk (chunk (g.chars ++ rest)) = false) :
    r.grammar.readFront (g.chars ++ rest) =
      match pieceTail
        (g.body.flatMap Element.chars ++ (List.replicate g.closing ')' ++ rest)) with
      | none => .error (.unknownElement (String.ofList (chunk (g.chars ++ rest))))
      | some tail => tail.elements.map fun es => (g.lead ++ es, tail.rest) := by
  obtain ⟨hmap, hall⟩ := lead_of_chars hr g.lead_opening
    fun e he => hg e (List.mem_append_left _ he)
  have hchars : g.chars ++ rest = g.lead.flatMap Element.chars ++
      (g.body.flatMap Element.chars ++ (List.replicate g.closing ')' ++ rest)) := by
    rw [Group.chars, List.append_assoc, List.append_assoc]
  have hcut := cut_append hall fun c => isLead_head?_body hr hg hrest (c := c)
  have hread := hr.plain.readFront_of_piece hop
  rw [hchars, hcut.1, hcut.2, hmap, ← hchars] at hread
  refine hread.trans ?_
  cases pieceTail
    (g.body.flatMap Element.chars ++ (List.replicate g.closing ')' ++ rest)) with
  | none => rfl
  | some tail => rfl

/-- **A group is read as its elements**, unless it is taken for an operator, if its operand ends
    where it was ended. -/
theorem readFront_piece (hr : r.Distinct) {g : Group} (hg : ∀ e ∈ g.elements, e.Legible r)
    {rest : List Char} (hrest : AtGap rest)
    (hop : r.grammar.isOperatorChunk (chunk (g.chars ++ rest)) = false)
    (hend : ∀ o, g.operand = some o → o.EndsBefore (List.replicate g.closing ')' ++ rest)) :
    r.grammar.readFront (g.chars ++ rest) = .ok (g.elements, rest) := by
  rw [readFront_lead hr hg hrest hop]
  cases ho : g.operand with
  | none =>
    rw [chars_of_no_operand ho, pieceTail_word (fun c hc => absurd hc List.not_mem_nil)
      (fun c hc => by cases hc) hrest, Group.elements, Group.body, ho]
    rfl
  | some o =>
    obtain ⟨hfinish, hlexeme⟩ := pieceTail_operand (operand_legible hg ho) hrest (hend o ho)
    rw [chars_of_operand ho, hfinish, Group.elements, Group.body, ho]
    show (Tail.elements _).map _ = _
    rw [Tail.elements_some, hlexeme]
    rfl

/-- **A group that is read as its elements** has an operand that ends where it was ended. -/
theorem endsBefore_of_readFront (hr : r.Distinct) {g : Group} (hg : ∀ e ∈ g.elements, e.Legible r)
    {rest : List Char} (hrest : AtGap rest)
    (hop : r.grammar.isOperatorChunk (chunk (g.chars ++ rest)) = false)
    {es more behind : Condition} {left : List Char}
    (hread : r.grammar.readFront (g.chars ++ rest) = .ok (es, left))
    (hes : es ++ more = g.elements ++ behind) {o : Operand} (ho : g.operand = some o) :
    o.EndsBefore (List.replicate g.closing ')' ++ rest) := by
  cases o with
  | text body =>
    have hq := isQuote_quoteFor body
    have hlegible := operand_legible hg ho
    have hbody : g.body.flatMap Element.chars ++ (List.replicate g.closing ')' ++ rest) =
        quoteFor body :: (body.toList ++
          quoteFor body :: (List.replicate g.closing ')' ++ rest)) := by
      rw [chars_of_operand ho, Operand.chars, List.cons_append, List.cons_append, List.append_assoc]
      rfl
    rw [readFront_lead hr hg hrest hop, hbody, pieceTail_quote hq] at hread
    cases hl : literalTail (quoteFor body)
        (body.toList ++ quoteFor body :: (List.replicate g.closing ')' ++ rest)) with
    | none =>
      rw [hl] at hread
      cases hread
    | some tail =>
      obtain ⟨found, hfound⟩ := exists_body_of_literalTail hl
      rw [hl] at hread
      obtain ⟨behindLead, helements, he⟩ := map_eq_ok_iff.mp hread
      cases he
      obtain ⟨lexeme, n, left⟩ := tail
      cases hfound
      rw [Tail.elements_some] at helements
      obtain ⟨other, hother, rfl⟩ := map_eq_ok_iff.mp helements
      -- the literal that was found is the one that was written
      rw [Group.elements, Group.body, ho, List.append_assoc, List.append_assoc] at hes
      have hsame : Operand.text body = other :=
        (Element.operand.inj (List.cons.inj (List.append_cancel_left hes)).1).symm
      subst hsame
      have hfound : body = String.ofList found :=
        Operand.text.inj (Operand.eq_text_of_quoted hq hother).1
      refine endsThere_of_literalTail (hasUnescaped_quoteFor hlegible) hl ?_
      rw [hfound, String.toList_ofList]
  | _ => trivial

/-! ## 3. Groups and operators -/

/-- A chunk that symbols do not have all characters of, and that is no keyword. -/
structure Registry.Foreign (r : Registry) (cs : List Char) : Prop where
  symbols : ∃ c ∈ cs, isSymbolChar c = false
  keywords : ∀ name ∈ r.names, name.isKeyword = true → name.chars ≠ cs

theorem isOperatorChunk_of_foreign {cs : List Char} (h : r.Foreign cs) :
    r.grammar.isOperatorChunk cs = false := by
  rw [Grammar.isOperatorChunk, Bool.or_eq_false_iff]
  constructor
  · obtain ⟨c, hm, hs⟩ := h.symbols
    have hall : cs.all r.grammar.isSymbolic = false := by
      refine List.all_eq_false.mpr ⟨c, hm, fun hsym => ?_⟩
      rw [isSymbolChar_of_isSymbolic hsym] at hs
      cases hs
    rw [hall, Bool.and_false]
  · refine List.any_eq_false.mpr fun name hm hname => ?_
    obtain ⟨hkey, he⟩ := Bool.and_eq_true_iff.mp hname
    exact h.keywords name hm hkey (beq_iff_eq.mp he)

/-- A keyword begins with a letter. -/
theorem keyword_ne_of_head? {cs : List Char} {c : Char} (hc : cs.head? = some c)
    (ha : c.isAlpha = false) {name : OperatorName} (hk : name.isKeyword = true) :
    name.chars ≠ cs := by
  intro he
  have halpha := OperatorName.isAlpha_head?_of_isKeyword hk (he ▸ hc)
  rw [ha] at halpha
  cases halpha

/-- A chunk that begins with no letter is no keyword. -/
theorem foreign_of_head? {cs : List Char} {c : Char} (hc : cs.head? = some c)
    (ha : c.isAlpha = false) (hs : ∃ d ∈ cs, isSymbolChar d = false) : r.Foreign cs :=
  ⟨hs, fun _ _ hk => keyword_ne_of_head? hc ha hk⟩

theorem not_blank_of_mem_closing {n : Nat} {c : Char} (hc : c ∈ List.replicate n ')') :
    isBlank c = false := by
  rw [List.eq_of_mem_replicate hc]
  decide

theorem foreign_closing (n : Nat) {rest : List Char} (hrest : AtGap rest) :
    r.Foreign (chunk (List.replicate (n + 1) ')' ++ rest)) := by
  rw [(chunk_append (fun c hc => not_blank_of_mem_closing hc) hrest).1]
  exact foreign_of_head? rfl (by decide) ⟨')', List.mem_cons_self, by decide⟩

theorem foreign_quote {q : Char} (hq : isQuote q = true) (cs : List Char) :
    r.Foreign (chunk (q :: cs)) := by
  have hquote : isBlank q = false ∧ isSymbolChar q = false ∧ q.isAlpha = false := by
    rcases eq_of_isQuote hq with rfl | rfl
    · decide
    · decide
  rw [(chunk_cons_of_not_blank hquote.1 cs).1]
  exact foreign_of_head? rfl hquote.2.2 ⟨q, List.mem_cons_self, hquote.2.1⟩

theorem chunk_word {o : Operand} {w : List Char} (h : WordOf o w) (n : Nat)
    {rest : List Char} (hrest : AtGap rest) :
    chunk (w ++ (List.replicate n ')' ++ rest)) = w ++ List.replicate n ')' := by
  have hblank : ∀ c ∈ w ++ List.replicate n ')', isBlank c = false := by
    intro c hc
    rcases List.mem_append.mp hc with hc | hc
    · exact (isWordPart_iff.mp (h.parts c hc)).1
    · exact not_blank_of_mem_closing hc
  rw [← List.append_assoc, (chunk_append hblank hrest).1]

/-- An operand or closing brackets make a chunk with a character that symbols do not have. -/
theorem symbols_body {g : Group} (hg : ∀ e ∈ g.elements, e.Legible r)
    (h : g.operand ≠ none ∨ g.closing ≠ 0) {rest : List Char} (hrest : AtGap rest) :
    ∃ c ∈ chunk (g.body.flatMap Element.chars ++ (List.replicate g.closing ')' ++ rest)),
      isSymbolChar c = false := by
  cases ho : g.operand with
  | none =>
    have hne : g.closing ≠ 0 := h.resolve_left fun hn => hn ho
    obtain ⟨n, hn⟩ := Nat.exists_eq_succ_of_ne_zero hne
    rw [chars_of_no_operand ho, hn]
    exact (foreign_closing (r := r) n hrest).symbols
  | some o =>
    rw [chars_of_operand ho]
    rcases wordOf_or_text (operand_legible hg ho) with hw | ⟨body, rfl⟩
    · rw [chunk_word hw g.closing hrest]
      obtain ⟨c, hc, halnum⟩ := hw.letter
      refine ⟨c, List.mem_append_left _ hc, ?_⟩
      rw [isSymbolChar, isPunctuation, halnum]
      simp only [Bool.not_true, Bool.and_false, Bool.false_and]
    · exact (foreign_quote (r := r) (isQuote_quoteFor body) _).symbols

/-- The word of an operand is no keyword, if the operand is no variable of that name. -/
theorem keyword_ne_operand (hr : r.Distinct) {o : Operand} (ho : o.Legible) {name : OperatorName}
    (hm : name ∈ r.names) (hk : name.isKeyword = true) (hvar : o ≠ .var name.text) :
    name.chars ≠ o.chars := by
  cases o with
  | var other => exact fun he => hvar (congrArg Operand.var (String.toList_inj.mp he).symm)
  | text body =>
    have hquote : (quoteFor body).isAlpha = false := by
      rcases eq_of_isQuote (isQuote_quoteFor body) with hq | hq
      · rw [hq]
        rfl
      · rw [hq]
        rfl
    exact keyword_ne_of_head? rfl hquote hk
  | number x =>
    intro he
    cases hc : x.write.head? with
    | none => exact name.chars_ne_nil (he.trans (List.head?_eq_none_iff.mp hc))
    | some c => exact keyword_ne_of_head? hc (not_alpha_of_numberHead (head?_write ho hc)) hk he
  | truth b =>
    intro he
    have htext : name.text = truthWord b := String.toList_inj.mp he
    cases b with
    | true => exact (hr.not_truth name hm).1 htext
    | false => exact (hr.not_truth name hm).2 htext

/-- **An operand or closing brackets make a chunk that is no operator**, if they are not a variable
    by itself that has the name of a keyword. -/
theorem foreign_body (hr : r.Distinct) {g : Group} (hg : ∀ e ∈ g.elements, e.Legible r)
    (hvar : g.closing = 0 → ∀ name ∈ r.names, name.isKeyword = true →
      g.operand ≠ some (.var name.text))
    (h : g.operand ≠ none ∨ g.closing ≠ 0) {rest : List Char} (hrest : AtGap rest) :
    r.Foreign
      (chunk (g.body.flatMap Element.chars ++ (List.replicate g.closing ')' ++ rest))) := by
  refine ⟨symbols_body hg h hrest, fun name hm hk => ?_⟩
  cases ho : g.operand with
  | none =>
    have hne : g.closing ≠ 0 := h.resolve_left fun hn => hn ho
    obtain ⟨n, hn⟩ := Nat.exists_eq_succ_of_ne_zero hne
    rw [chars_of_no_operand ho, hn]
    exact (foreign_closing n hrest).keywords name hm hk
  | some o =>
    have hlegible := operand_legible hg ho
    rw [chars_of_operand ho]
    rcases wordOf_or_text hlegible with hw | ⟨body, rfl⟩
    · rw [chunk_word hw g.closing hrest]
      cases hn : g.closing with
      | zero =>
        rw [List.replicate_zero, List.append_nil]
        refine keyword_ne_operand hr hlegible hm hk fun hv => hvar hn name hm hk ?_
        rw [ho, hv]
      | succ n =>
        intro he
        have hc : ')' ∈ name.chars := by
          rw [he]
          exact List.mem_append_right _ List.mem_cons_self
        exact absurd (OperatorName.isWordPart_of_mem hc) (by decide)
    · exact (foreign_quote (isQuote_quoteFor body) _).keywords name hm hk

/-- Where no bracket is opened, a lead is a run of `!`. -/
theorem lead_eq_replicate (hr : r.Distinct) {lead : Condition} (ho : ∀ e ∈ lead, e.isOpening = true)
    (he : ∀ e ∈ lead, e.Legible r) (hb : Element.bracket .opening ∉ lead) :
    lead = List.replicate lead.length (.negation .not) := by
  refine List.eq_replicate_iff.mpr ⟨rfl, fun e hm => ?_⟩
  rcases eq_of_isOpening hr (ho e hm) (he e hm) with rfl | ⟨hnot, -⟩
  · exact absurd hm hb
  · exact hnot

theorem elements_eq_lead {g : Group} (h : ¬ (g.operand ≠ none ∨ g.closing ≠ 0)) :
    g.elements = g.lead := by
  rw [not_or, not_not, not_not] at h
  rw [Group.elements, Group.body, h.1, h.2]
  exact List.append_nil _

theorem eq_of_mem_lead (hr : r.Distinct) {g : Group} (hg : ∀ e ∈ g.elements, e.Legible r)
    {c : Char} (hc : c ∈ g.lead.flatMap Element.chars) : c = '(' ∨ c = '!' := by
  have hlead := lead_of_chars hr g.lead_opening fun e he => hg e (List.mem_append_left _ he)
  exact (hr.plain.eq_of_isLead (hlead.2 c hc)).imp_right And.left

theorem chunk_group (hr : r.Distinct) {g : Group} (hg : ∀ e ∈ g.elements, e.Legible r)
    (rest : List Char) : chunk (g.chars ++ rest) = g.lead.flatMap Element.chars ++
      chunk (g.body.flatMap Element.chars ++ (List.replicate g.closing ')' ++ rest)) := by
  rw [Group.chars, List.append_assoc, List.append_assoc]
  refine List.takeWhile_append_of_pos fun c hc => ?_
  rcases eq_of_mem_lead hr hg hc with rfl | rfl
  · decide
  · decide

/-- A lead begins with a character that is no letter. -/
theorem exists_head_of_lead (hr : r.Distinct) {g : Group} (hg : ∀ e ∈ g.elements, e.Legible r)
    (hne : g.lead ≠ []) :
    ∃ c cs, g.lead.flatMap Element.chars = c :: cs ∧ c.isAlpha = false := by
  have hchars := (lead_of_chars hr g.lead_opening fun e he => hg e (List.mem_append_left _ he)).1
  cases hc : g.lead.flatMap Element.chars with
  | nil =>
    rw [hc, List.map_nil] at hchars
    exact absurd hchars.symm hne
  | cons c cs =>
    have hm : c ∈ g.lead.flatMap Element.chars := by
      rw [hc]
      exact List.mem_cons_self
    refine ⟨c, cs, rfl, ?_⟩
    rcases eq_of_mem_lead hr hg hm with rfl | rfl
    · decide
    · decide

/-- **Only a run of `!` is a group that could be taken for an operator.** -/
theorem isOperatorChunk_group (hr : r.Distinct) {g : Group} (hg : ∀ e ∈ g.elements, e.Legible r)
    (hvar : ∀ name ∈ r.names, name.isKeyword = true → g.elements ≠ [.operand (.var name.text)])
    (hne : g.elements ≠ []) {rest : List Char} (hrest : AtGap rest) :
    (∃ n, g.elements = List.replicate (n + 1) (.negation .not)) ∨
      r.grammar.isOperatorChunk (chunk (g.chars ++ rest)) = false := by
  have hlegible : ∀ e ∈ g.lead, e.Legible r := fun e he => hg e (List.mem_append_left _ he)
  rw [chunk_group hr hg]
  cases hlead : g.lead with
  | nil =>
    right
    have hthere : g.operand ≠ none ∨ g.closing ≠ 0 := by
      by_contra hnone
      rw [elements_eq_lead hnone] at hne
      exact hne hlead
    refine isOperatorChunk_of_foreign (foreign_body hr hg (fun hn name hm hk ho => ?_) hthere hrest)
    refine hvar name hm hk ?_
    rw [Group.elements, Group.body, hlead, ho, hn]
    rfl
  | cons e lead =>
    have hnonempty : g.lead ≠ [] := by
      rw [hlead]
      exact List.cons_ne_nil _ _
    obtain ⟨c, cs, hc, halpha⟩ := exists_head_of_lead hr hg hnonempty
    rw [← hlead, hc]
    by_cases hthere : g.operand ≠ none ∨ g.closing ≠ 0
    · obtain ⟨d, hd, hds⟩ := symbols_body hg hthere hrest
      right
      refine isOperatorChunk_of_foreign (foreign_of_head? rfl halpha ?_)
      exact ⟨d, List.mem_append_right (c :: cs) hd, hds⟩
    · by_cases hb : Element.bracket .opening ∈ g.lead
      · have hm : '(' ∈ c :: cs := by
          rw [← hc]
          exact List.mem_flatMap.mpr ⟨_, hb, List.mem_cons_self⟩
        right
        refine isOperatorChunk_of_foreign (foreign_of_head? rfl halpha ?_)
        exact ⟨'(', List.mem_append_left _ hm, by decide⟩
      · left
        refine ⟨lead.length, ?_⟩
        rw [elements_eq_lead hthere, lead_eq_replicate hr g.lead_opening hlegible hb, hlead]
        rfl

/-- **A run of two negations or more is not read back**: it is read as one operator, or is a
    fault. -/
theorem not_readFront_run {n : Nat} {rest left : List Char} (hrest : AtGap rest)
    (hnot : (Element.negation .not).Legible r) {es more behind : Condition}
    (hread : r.grammar.readFront (List.replicate (n + 2) '!' ++ rest) = .ok (es, left))
    (hes : es ++ more = List.replicate (n + 2) (.negation .not) ++ behind) : False := by
  have hblank : ∀ c ∈ List.replicate (n + 2) '!', isBlank c = false := by
    intro c hc
    rw [List.eq_of_mem_replicate hc]
    decide
  have hname : Negation.not.name ∈ r.names := name_mem_of_readsBack (e := .negation .not) hnot rfl
  have hsymbolic : r.grammar.isSymbolic '!' = true := List.any_eq_true.mpr ⟨_, hname, by decide⟩
  have hop : r.grammar.isOperatorChunk (List.replicate (n + 2) '!') = true := by
    have hall : (List.replicate (n + 2) '!').all r.grammar.isSymbolic = true :=
      List.all_eq_true.mpr fun c hc => List.eq_of_mem_replicate hc ▸ hsymbolic
    rw [Grammar.isOperatorChunk, hall]
    rfl
  rw [Grammar.readFront, (chunk_append hblank hrest).1, if_pos hop] at hread
  obtain ⟨e, he, hfront⟩ := map_eq_ok_iff.mp hread
  cases hfront
  have hsingle : e = .negation .not := (List.cons.inj hes).1
  subst hsingle
  have hspelled : r.negation? (String.ofList (List.replicate (n + 2) '!')) = some .not :=
    Grammar.spells_of_readOperator he
  have hlength := congrArg (·.toList.length) (OperatorSet.mem_of_find? hspelled).2
  rw [String.toList_ofList, List.length_replicate] at hlength
  have hone : 1 = n + 2 := hlength
  omega

end Groups

/-! ## 4. Groups put together -/

section Conditions

variable {r : Registry}

namespace Condition

theorem noLoneRun_append {front rest : Condition} (hne : front ≠ []) (hfront : Chained front)
    (hrest : Apart front rest) : NoLoneRun (front ++ rest) ↔
      (∀ n, front ≠ List.replicate (n + 2) (.negation .not)) ∧ NoLoneRun rest := by
  rw [NoLoneRun, splitBy_append_of_apart hne hfront hrest, List.forall_mem_cons]
  rfl

theorem literalsEnd_nil : LiteralsEnd [] := fun _ _ hs => absurd (List.suffix_nil.mp hs) nofun

theorem literalsEnd_cons {e : Element} {es : Condition} : LiteralsEnd (e :: es) ↔
    (∀ o, e = .operand o → o.EndsBefore (charsAfter e es)) ∧ LiteralsEnd es := by
  constructor
  · intro h
    refine ⟨fun o he => ?_, fun o after hs => h o after (hs.trans (List.suffix_cons e es))⟩
    subst he
    exact h o es List.suffix_rfl
  · rintro ⟨he, hes⟩ o after hs
    rcases List.suffix_cons_iff.mp hs with heq | hs
    · obtain ⟨rfl, rfl⟩ := List.cons.inj heq
      exact he o rfl
    · exact hes o after hs

theorem literalsEnd_append {front : Condition} (h : ∀ e ∈ front, ∀ o, e ≠ .operand o)
    {rest : Condition} : LiteralsEnd (front ++ rest) ↔ LiteralsEnd rest := by
  induction front with
  | nil => exact Iff.rfl
  | cons e front ih =>
    have htail := ih fun d hd => h d (List.mem_cons_of_mem e hd)
    have hhead : ∀ o, e = .operand o → o.EndsBefore (charsAfter e (front ++ rest)) :=
      fun o he => absurd he (h e List.mem_cons_self o)
    rw [List.cons_append, literalsEnd_cons, htail]
    exact and_iff_right hhead

theorem literalsEnd_of_forall {c : Condition}
    (h : ∀ body, .operand (.text body) ∈ c → endsEscaped false body.toList = false) :
    c.LiteralsEnd := by
  intro o after hs
  refine endsBefore_of_forall (fun body ho => h body ?_) _
  exact ho ▸ hs.subset List.mem_cons_self

/-- The literals of a group and of what is behind it: only one stands in the group. -/
theorem literalsEnd_group {g : Group} {rest : Condition} (hrest : Apart g.elements rest) :
    LiteralsEnd (g.elements ++ rest) ↔
      (∀ o, g.operand = some o →
        o.EndsBefore (List.replicate g.closing ')' ++ spaced rest)) ∧ LiteralsEnd rest := by
  have hlead : ∀ e ∈ g.lead, ∀ o, e ≠ .operand o := by
    intro e he o heq
    have hopening := g.lead_opening e he
    rw [heq] at hopening
    cases hopening
  have hclosings : ∀ e ∈ List.replicate g.closing (Element.bracket .closing), ∀ o,
      e ≠ .operand o := by
    intro e he o heq
    rw [List.eq_of_mem_replicate he] at heq
    cases heq
  rw [Group.elements, List.append_assoc, literalsEnd_append hlead, Group.body]
  cases ho : g.operand with
  | none =>
    refine (literalsEnd_append hclosings).trans (and_iff_right fun o h => ?_).symm
    cases h
  | some o =>
    have hoperand : (Element.operand o).isClosable = true := rfl
    have hlast : Apart (.operand o :: List.replicate g.closing (.bracket .closing)) rest := by
      intro a ha
      refine hrest a ?_
      rw [Group.elements, Group.body, ho]
      show a ∈ (g.lead ++ Element.operand o :: List.replicate g.closing _).getLast?
      rwa [List.getLast?_append_of_ne_nil _ (List.cons_ne_nil _ _)]
    have hafter : charsAfter (.operand o) (List.replicate g.closing (.bracket .closing) ++ rest)
        = List.replicate g.closing ')' ++ spaced rest := by
      rw [charsAfter_append (chained_closings hoperand _) hlast, flatMap_replicate (c := ')') rfl]
    show LiteralsEnd (.operand o :: (List.replicate g.closing (.bracket .closing) ++ rest)) ↔ _
    rw [literalsEnd_cons, hafter, literalsEnd_append hclosings]
    refine and_congr_left' ⟨fun h o' ho' => ?_, fun h o' ho' => ?_⟩
    · exact h o' (congrArg Element.operand (Option.some.inj ho'))
    · exact h o' (congrArg some (Element.operand.inj ho'))

theorem Legible.append {front rest : Condition} (h : Legible r (front ++ rest)) (hne : front ≠ [])
    (hfront : Chained front) (hrest : Apart front rest) : Legible r rest := by
  refine ⟨fun e he => h.elements e (List.mem_append_right front he), fun name hm => ?_⟩
  refine h.keywords name ?_
  rw [splitBy_append_of_apart hne hfront hrest]
  exact List.mem_cons_of_mem front hm

end Condition

/-! ## 5. Steps of reading -/

theorem exists_chars {e : Element} (he : e.Legible r) :
    ∃ c cs, e.chars = c :: cs ∧ isBlank c = false := by
  have hpart : ∀ {w : List Char}, w ≠ [] → (∀ c ∈ w, isWordPart c = true) →
      ∃ c cs, w = c :: cs ∧ isBlank c = false := by
    intro w hne hw
    obtain ⟨c, cs, rfl⟩ := List.exists_cons_of_ne_nil hne
    exact ⟨c, cs, rfl, (isWordPart_iff.mp (hw c List.mem_cons_self)).1⟩
  cases hn : e.operatorName? with
  | some name =>
    rw [chars_of_operatorName? hn]
    exact hpart name.chars_ne_nil fun c hc => OperatorName.isWordPart_of_mem hc
  | none =>
    cases e with
    | bracket b => cases b with
      | opening => exact ⟨'(', [], rfl, by decide⟩
      | closing => exact ⟨')', [], rfl, by decide⟩
    | operand o =>
      rcases wordOf_or_text he with hw | ⟨body, rfl⟩
      · obtain ⟨c, hc, -⟩ := hw.letter
        exact hpart (List.ne_nil_of_mem hc) hw.parts
      · refine ⟨_, _, rfl, ?_⟩
        rcases eq_of_isQuote (isQuote_quoteFor body) with hq | hq
        · rw [hq]
          decide
        · rw [hq]
          decide
    | _ => cases hn

theorem readFrom_chars_cons {e : Element} {es : Condition} (he : e.Legible r) :
    r.grammar.readFrom 0 (Condition.chars (e :: es))
      = (r.grammar.readFront (Condition.chars (e :: es))).bind fun (front, left) =>
          (r.grammar.readFrom 0 left).map (front ++ ·) := by
  obtain ⟨c, cs, hc, hblank⟩ := exists_chars he
  rw [Condition.chars, hc, List.cons_append, Grammar.readFrom_cons hblank]

theorem readFrom_spaced (es : Condition) :
    r.grammar.readFrom 0 (Condition.spaced es) = r.grammar.readFrom 0 es.chars := by
  cases es with
  | nil => rfl
  | cons e es => rfl

theorem map_append_eq_ok_iff {front rest : Condition} {x : Except Fault Condition} :
    x.map (front ++ ·) = .ok (front ++ rest) ↔ x = .ok rest := by
  rw [map_eq_ok_iff]
  constructor
  · rintro ⟨more, rfl, h⟩
    rw [List.append_cancel_left h]
  · rintro rfl
    exact ⟨rest, rfl, rfl⟩

/-- Where the front is read as it was written, what is behind it decides. -/
theorem readFrom_append_iff {front rest : Condition} (hc : Condition.Legible r (front ++ rest))
    (hne : front ≠ [])
    (hfront : r.grammar.readFront (Condition.chars (front ++ rest))
      = .ok (front, Condition.spaced rest)) :
    r.grammar.readFrom 0 (Condition.chars (front ++ rest)) = .ok (front ++ rest) ↔
      r.grammar.readFrom 0 rest.chars = .ok rest := by
  obtain ⟨e, front, rfl⟩ := List.exists_cons_of_ne_nil hne
  have he : e.Legible r := hc.elements e List.mem_cons_self
  rw [List.cons_append] at hfront ⊢
  rw [readFrom_chars_cons he, hfront]
  show (r.grammar.readFrom 0 (Condition.spaced rest)).map _ = _ ↔ _
  rw [readFrom_spaced]
  exact map_append_eq_ok_iff

/-- **A group that is no run of negations is read as its elements**, if its operand ends where it
    was ended. -/
theorem readFront_group (hr : r.Distinct) {g : Group} (hg : ∀ e ∈ g.elements, e.Legible r)
    (hvar : ∀ name ∈ r.names, name.isKeyword = true → g.elements ≠ [.operand (.var name.text)])
    (hne : g.elements ≠ []) {rest : List Char} (hrest : AtGap rest)
    (hrun : ∀ n, g.elements ≠ List.replicate (n + 2) (.negation .not))
    (hend : ∀ o, g.operand = some o → o.EndsBefore (List.replicate g.closing ')' ++ rest)) :
    r.grammar.readFront (g.chars ++ rest) = .ok (g.elements, rest) := by
  rcases isOperatorChunk_group hr hg hvar hne hrest with ⟨n, hn⟩ | hop
  · cases n with
    | zero =>
      -- a single negation by a symbol is read as the operator it is
      have hnot : (Element.negation .not).Legible r := hg _ (by rw [hn]; exact List.mem_cons_self)
      have hsingle : g.chars = (Element.negation .not).chars := by
        rw [g.chars_eq_flatMap, hn]
        rfl
      rw [hsingle, hn]
      exact readFront_operator hr (readsBack_of_operatorName? hnot rfl) rfl hrest
    | succ n => exact absurd hn (hrun n)
  · exact readFront_piece hr hg hrest hop hend

/-- **One step of reading** takes off one group; it takes off what was written exactly if the group
    is no run of negations and its operand ends where it was ended. -/
theorem readFrom_group_iff (hr : r.Distinct) {g : Group} {rest : Condition}
    (hc : Condition.Legible r (g.elements ++ rest)) (hne : g.elements ≠ [])
    (hapart : Condition.Apart g.elements rest) :
    r.grammar.readFrom 0 (Condition.chars (g.elements ++ rest)) = .ok (g.elements ++ rest) ↔
      ((∀ n, g.elements ≠ List.replicate (n + 2) (.negation .not)) ∧
        ∀ o, g.operand = some o →
          o.EndsBefore (List.replicate g.closing ')' ++ Condition.spaced rest)) ∧
      r.grammar.readFrom 0 rest.chars = .ok rest := by
  have hchars : Condition.chars (g.elements ++ rest) = g.chars ++ Condition.spaced rest := by
    rw [Condition.chars_append hne g.chained hapart, g.chars_eq_flatMap]
  have hgap := Condition.atGap_spaced rest
  have hg : ∀ e ∈ g.elements, e.Legible r := fun e he => hc.elements e (List.mem_append_left _ he)
  have hvar : ∀ name ∈ r.names, name.isKeyword = true →
      g.elements ≠ [.operand (.var name.text)] := by
    intro name hm hk he
    refine hc.keywords name.text ?_ name hm hk rfl
    rw [Condition.splitBy_append_of_apart hne g.chained hapart, he]
    exact List.mem_cons_self
  have hgood : ((∀ n, g.elements ≠ List.replicate (n + 2) (.negation .not)) ∧
      ∀ o, g.operand = some o →
        o.EndsBefore (List.replicate g.closing ')' ++ Condition.spaced rest)) →
      r.grammar.readFront (Condition.chars (g.elements ++ rest))
        = .ok (g.elements, Condition.spaced rest) := fun h =>
    hchars ▸ readFront_group hr hg hvar hne hgap h.1 h.2
  constructor
  · intro hread
    obtain ⟨e, es, hcons⟩ := List.exists_cons_of_ne_nil (List.append_ne_nil_of_left_ne_nil hne rest)
    have hlegible : e.Legible r := hc.elements e (by rw [hcons]; exact List.mem_cons_self)
    have hread' := hread
    rw [hcons, readFrom_chars_cons hlegible, ← hcons] at hread'
    obtain ⟨⟨front, left⟩, hfront, hmore⟩ := bind_eq_ok_iff.mp hread'
    obtain ⟨more, -, hes⟩ := map_eq_ok_iff.mp hmore
    rw [hchars] at hfront
    -- whatever was read in its place is not the group, if the group cannot be read
    have hrun : ∀ n, g.elements ≠ List.replicate (n + 2) (.negation .not) := by
      intro n hn
      rw [g.chars_eq_flatMap, hn, flatMap_replicate (c := '!') rfl] at hfront
      rw [hn] at hg hes
      exact not_readFront_run hgap (hg _ List.mem_cons_self) hfront hes
    have hend : ∀ o, g.operand = some o →
        o.EndsBefore (List.replicate g.closing ')' ++ Condition.spaced rest) := by
      intro o ho
      rcases isOperatorChunk_group hr hg hvar hne hgap with ⟨n, hn⟩ | hop
      · have hm : Element.operand o ∈ g.elements := Group.mem_elements ho
        rw [hn] at hm
        cases List.eq_of_mem_replicate hm
      · exact endsBefore_of_readFront hr hg hgap hop hfront hes ho
    exact ⟨⟨hrun, hend⟩, (readFrom_append_iff hc hne (hgood ⟨hrun, hend⟩)).mp hread⟩
  · rintro ⟨h, hrest⟩
    exact (readFrom_append_iff hc hne (hgood h)).mpr hrest

/-! ## 6. Whole conditions -/

/-- What stands by itself is an operator. -/
theorem exists_operatorName? {e : Element} (h : e.standsAlone = true) :
    ∃ name, e.operatorName? = some name := by
  cases e with
  | comparison operator => exact ⟨_, rfl⟩
  | connective operator => exact ⟨_, rfl⟩
  | negation operator => exact ⟨_, rfl⟩
  | _ => cases h

/-- **A legible condition reads back exactly if** no run of negations stands by itself and all
    literals end where they were ended. The induction is on the length: a step takes off one group,
    and what is behind it is legible by itself. -/
theorem readFrom_chars_iff (hr : r.Distinct) {c : Condition} (hc : c.Legible r) :
    r.grammar.readFrom 0 c.chars = .ok c ↔ c.NoLoneRun ∧ c.LiteralsEnd := by
  induction hn : c.length using Nat.strong_induction_on generalizing c with
  | h n ih =>
    subst hn
    cases c with
    | nil => exact iff_of_true rfl ⟨nofun, Condition.literalsEnd_nil⟩
    | cons e es =>
      rcases Condition.exists_group e es with halone | ⟨g, rest, hne, hsplit, hapart⟩
      · have hapart := Condition.apart_of_standsAlone halone es
        have hchain : Condition.Chained [e] := List.isChain_singleton e
        have hne : [e] ≠ [] := List.cons_ne_nil e []
        obtain ⟨name, hname⟩ := exists_operatorName? halone
        have hreads := readsBack_of_operatorName? (hc.elements e List.mem_cons_self) hname
        have hfront : r.grammar.readFront (Condition.chars ([e] ++ es))
            = .ok ([e], Condition.spaced es) := by
          rw [Condition.chars_append hne hchain hapart, List.flatMap_singleton]
          exact readFront_operator hr hreads hname (Condition.atGap_spaced es)
        have hrun : ∀ n, [e] ≠ List.replicate (n + 2) (.negation .not) := nofun
        have hoperand : ∀ d ∈ [e], ∀ o, d ≠ .operand o := by
          rintro d hd o rfl
          cases List.mem_singleton.mp hd
          cases halone
        show r.grammar.readFrom 0 (Condition.chars ([e] ++ es)) = .ok ([e] ++ es) ↔
          Condition.NoLoneRun ([e] ++ es) ∧ Condition.LiteralsEnd ([e] ++ es)
        rw [readFrom_append_iff hc hne hfront, Condition.noLoneRun_append hne hchain hapart,
          Condition.literalsEnd_append hoperand, and_iff_right hrun]
        have hrest : Condition.Legible r es := Condition.Legible.append hc hne hchain hapart
        exact ih es.length (Nat.lt_succ_self _) hrest rfl
      · rw [hsplit] at hc ⊢
        have hlen : rest.length < (e :: es).length := by
          have hlen := congrArg List.length hsplit
          have hpos := List.length_pos_iff.mpr hne
          rw [List.length_append] at hlen
          omega
        rw [readFrom_group_iff hr hc hne hapart, Condition.noLoneRun_append hne g.chained hapart,
          Condition.literalsEnd_group hapart,
          ih rest.length hlen (hc.append hne g.chained hapart) rfl]
        exact and_and_and_comm

theorem Condition.legible_of_readsBack {es : Condition} (hes : ∀ e ∈ es, e.ReadsBack r) :
    es.Legible r := by
  refine ⟨fun e he => Verdict.legible_of_readsBack (hes e he), fun name hm keyword hk hkey he => ?_⟩
  have hin : Element.operand (.var name) ∈ es := by
    have hinfix := List.infix_of_mem_flatten hm
    rw [List.flatten_splitBy] at hinfix
    exact hinfix.subset List.mem_cons_self
  exact (hes _ hin).2.2.2 keyword hk hkey he

/-- Where no two negations by symbols stand side by side there is no run of them. -/
theorem Condition.Spread.noLoneRun {es : Condition} (h : es.Spread) : es.NoLoneRun := by
  intro group hm n hn
  have hinfix := List.infix_of_mem_flatten hm
  rw [List.flatten_splitBy, hn] at hinfix
  have hchain := List.IsChain.infix h hinfix
  exact (List.isChain_cons_cons.mp hchain).1 ⟨by decide, by decide⟩

theorem readFrom_chars (hr : r.Distinct) {es : Condition} (hes : ∀ e ∈ es, e.ReadsBack r)
    (hs : Condition.Spread es) : r.grammar.readFrom 0 es.chars = .ok es := by
  refine (readFrom_chars_iff hr (Condition.legible_of_readsBack hes)).mpr
    ⟨hs.noLoneRun, Condition.literalsEnd_of_forall fun body hm => ?_⟩
  have hbody : (Operand.text body).ReadsBack r := hes _ hm
  exact hbody.1

/-- The text of a condition reads back, read by hand. -/
theorem grammar_read_render (hr : r.Distinct) {es : Condition} (hne : es ≠ [])
    (hes : ∀ e ∈ es, e.ReadsBack r) (hs : Condition.Spread es) :
    r.grammar.read es.render = .ok es := by
  refine Grammar.read_eq_ok_iff.mpr ⟨?_, hne⟩
  rw [Condition.render, String.toList_ofList]
  exact readFrom_chars hr hes hs

open RegexLibrary (Accepts Reads)

/-- **The text of a condition reads back**, where the library takes the expression for a front and reads
    it as it is written. -/
theorem read_render [RegexLibrary] (haccepts : Accepts (r.front none))
    (hreads : Reads (r.front none)) (hr : r.Distinct) {es : Condition} (hne : es ≠ [])
    (hes : ∀ e ∈ es, e.ReadsBack r) (hs : Condition.Spread es) :
    ((Grammar.ofRegistry r none).bind fun g => g.read es.render) = .ok es := by
  rw [Grammar.read_ofRegistry haccepts hreads]
  exact grammar_read_render hr hne hes hs

/-- The default registry with a connective and a negation by words. -/
def Registry.worded [RegexLibrary] : Registry :=
  (Registry.default.addConnective ⟨⟨"and", by decide⟩, .and⟩).addNegation ⟨⟨"not", by decide⟩⟩

/-- The expression for a front of these operators. -/
def Registry.wordedFront : Expr := (@Registry.worded (.table [])).front none

theorem Registry.comparisons_worded [RegexLibrary] :
    Registry.worded.comparisons = Registry.default.comparisons := rfl

theorem Registry.front_worded [RegexLibrary] : Registry.worded.front none = Registry.wordedFront := by
  have hnames : Registry.worded.names = (@Registry.worded (.table [])).names := by
    rw [names, names, comparisons_worded, @comparisons_worded (.table []), names_comparisons,
      @names_comparisons (.table [])]
    rfl
  exact front_congr hnames rfl none

/-- A condition that cannot be evaluated: the literals hold quotes, brackets, operators and blanks,
    and the brackets do not close. -/
def Condition.ragged [RegexLibrary] : Condition :=
  [.negation .not, .bracket .opening, .negation .not, .operand (.var "is-on"),
    .bracket .closing, .bracket .closing, .connective ⟨⟨"and", by decide⟩, .and⟩,
    .negation ⟨⟨"not", by decide⟩⟩, .operand (.text "it's (a\n&& b) \\\" "), .comparison .contains,
    .operand (.number (.real true (.ofRank 0x3FF8000000000000))), .operand (.truth true),
    .bracket .closing, .bracket .opening, .negation .not]

/-- The hypotheses hold of a condition that is all edges. -/
theorem read_render_ragged : letI := RegexLibrary.table [Registry.wordedFront.regex]
    Condition.ragged.render = "!(!is-on)) and not \"it's (a\n&& b) \\\" \" contains -1.5 true) (!" ∧
      ((Grammar.ofRegistry .worded none).bind fun g => g.read Condition.ragged.render)
        = .ok Condition.ragged := by
  let library := RegexLibrary.table [Registry.wordedFront.regex]
  obtain ⟨haccepts, hreads⟩ :=
    RegexLibrary.accepts_reads_table Registry.front_worded (Registry.nodup_names_front _)
  have hr : Registry.worded.Distinct :=
    ⟨by decide, by decide, by decide, by decide, by decide⟩
  refine ⟨by decide +kernel, read_render haccepts hreads hr (List.cons_ne_nil _ _) ?_ ?_⟩
  · simp only [Condition.ragged, List.forall_mem_cons]
    have hcontains : (Element.comparison .contains).ReadsBack Registry.worded := by
      show Registry.default.comparison? "contains" = _
      rw [Registry.default_eq]
      rfl
    exact ⟨rfl, trivial, rfl, ⟨by decide, by decide, by decide, by decide⟩, trivial, trivial, rfl,
      rfl, ⟨by decide, .inr (by decide)⟩, hcontains, rfl, trivial, trivial, trivial, rfl,
      List.forall_mem_nil _⟩
  · simp only [Condition.ragged, Condition.Spread, List.isChain_cons_cons, List.isChain_singleton]
    decide

end Conditions

end Verdict
