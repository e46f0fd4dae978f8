import Verdict.Proofs.Pieces

/-!
# Elements told by their texts

What an element is shows in its text, when that stands by itself: an operator is read as the
operator of its name, a word as the operand it was written for, a literal between quotes as its
body. The operators are those of any registry that gives each name one meaning and has no symbol for
a negation but `!`.

What is asked of the elements (`Element.Legible`) is what a reader could not tell from the text
otherwise, and it holds of all elements that were read. It does not rule out two things that depend
on what is written around an element. A variable may have the name of a keyword, and a literal may
end with a backslash that escapes its own quote: then it ends there only if no other quote is taken
for its end first (`EndsThere`). `Element.ReadsBack` rules these out.

* `readFront_operator` -- an operator by itself is read as one.
* `literalTail_of_endsThere`, `endsThere_of_literalTail` -- where a written literal ends.
* `pieceTail_operand` -- an operand is read as it was written.
* `ofLexeme_chars` -- an operand that was read is read again, whatever quotes, sign or digits its
  lexeme had.
-/

namespace Verdict

open Text

/-! ## 1. What can be told -/

/-- Each name means one operator, none is a truth value, and a symbol for a negation is `!`. -/
structure Registry.Distinct (r : Registry) : Prop where
  negations : ∀ n ∈ r.negations, n.name.isSymbol = true → n.name.text = "!"
  comparison_ne_connective : ∀ a ∈ r.comparisons, ∀ b ∈ r.connectives, a.name ≠ b.name
  comparison_ne_negation : ∀ a ∈ r.comparisons, ∀ b ∈ r.negations, a.name ≠ b.name
  connective_ne_negation : ∀ a ∈ r.connectives, ∀ b ∈ r.negations, a.name ≠ b.name
  not_truth : ∀ name ∈ r.names, name.text ≠ "true" ∧ name.text ≠ "false"

/-- What an operand must be for its text to be read back. -/
def Operand.ReadsBack (r : Registry) : Operand → Prop
  | var name => isPlainName name.toList = true ∧ name ≠ "true" ∧ name ≠ "false" ∧
      ∀ keyword ∈ r.names, keyword.isKeyword = true → keyword.text ≠ name
  | text body => endsEscaped false body.toList = false ∧
      (hasUnescaped '\'' false body.toList = false ∨ hasUnescaped '"' false body.toList = false)
  | number x => x.isFinite = true
  | truth _ => True

/-- What an element must be for its text to be read back: an operator of the registry, a bracket, or
    an operand that reads back. -/
def Element.ReadsBack (r : Registry) : Element → Prop
  | comparison operator => r.comparison? operator.name.text = some operator
  | connective operator => r.connective? operator.name.text = some operator
  | negation operator => r.negation? operator.name.text = some operator
  | bracket _ => True
  | operand o => o.ReadsBack r

/-- What an operand must be for its text, cut out of a source text, to stand for it. -/
def Operand.Legible : Operand → Prop
  | var name => isPlainName name.toList = true ∧ name ≠ "true" ∧ name ≠ "false"
  | text body => hasUnescaped '\'' false body.toList = false ∨
      hasUnescaped '"' false body.toList = false
  | number x => x.isFinite = true
  | truth _ => True

/-- What an element must be for its text, cut out of a source text, to stand for it. -/
def Element.Legible (r : Registry) : Element → Prop
  | operand o => o.Legible
  | e => e.ReadsBack r

/-- A literal with this body between quotes `q`, before the text `behind`, ends at its own quote. A
    body that ends with an unpaired backslash escapes the quote. Then the next quote behind that is
    not escaped is looked at, and must not end a piece; after that every quote is, in turn, and none
    in the body must end one. -/
def EndsThere (q : Char) (body behind : List Char) : Prop :=
  endsEscaped false body = true →
    (∀ before rest, cutAtQuote q false behind = some (before, rest) → closing? rest = none) ∧
      ∀ before rest, body = before ++ q :: rest → closing? (rest ++ q :: behind) = none

/-- The operand ends where it was ended, before the text `behind`, if it is a literal. -/
def Operand.EndsBefore (behind : List Char) : Operand → Prop
  | text body => EndsThere (quoteFor body) body.toList behind
  | _ => True

theorem legible_of_readsBack {r : Registry} {e : Element} (h : e.ReadsBack r) : e.Legible r := by
  cases e with
  | operand o =>
    cases o with
    | var name => exact ⟨h.1, h.2.1, h.2.2.1⟩
    | text body => exact h.2
    | number x => exact h
    | truth b => trivial
  | _ => exact h

/-- A literal that does not escape its quote ends there, before any text. -/
theorem endsBefore_of_forall {o : Operand}
    (h : ∀ body, o = .text body → endsEscaped false body.toList = false) (behind : List Char) :
    o.EndsBefore behind := by
  cases o with
  | text body =>
    intro he
    rw [h body rfl] at he
    cases he
  | _ => trivial

/-! ## 2. Names and chunks -/

theorem isWordPart_of_isSymbolChar {c : Char} (h : isSymbolChar c = true) : isWordPart c = true := by
  simp only [isSymbolChar, isPunctuation, Bool.and_eq_true, decide_eq_true_eq, Char.le_def,
    UInt32.le_iff_toNat_le, Bool.not_eq_true', Bool.or_eq_false_iff, beq_eq_false_iff_ne] at h
  have hlo : '!'.val.toNat = 0x21 := rfl
  have hhi : '~'.val.toNat = 0x7E := rfl
  have hval : c.toNat = c.val.toNat := rfl
  exact isWordPart_of_toNat (by omega) (by omega) h.2.1.1.1.2

theorem isAlphanum_of_isSymbolChar {c : Char} (h : isSymbolChar c = true) :
    c.isAlphanum = false := by
  simp only [isSymbolChar, isPunctuation, Bool.and_eq_true, Bool.not_eq_true'] at h
  exact h.1.2

theorem isQuote_of_isSymbolChar {c : Char} (h : isSymbolChar c = true) : isQuote c = false := by
  refine Bool.eq_false_iff.mpr fun hq => ?_
  rcases eq_of_isQuote hq with rfl | rfl
  · exact absurd h (by decide)
  · exact absurd h (by decide)

namespace OperatorName

theorem isAlpha_head?_of_isKeyword {name : OperatorName} (h : name.isKeyword = true) {c : Char}
    (hc : name.chars.head? = some c) : c.isAlpha = true := by
  unfold isKeyword at h
  cases hn : name.chars with
  | nil => rw [hn] at hc; cases hc
  | cons d ds =>
    rw [hn] at h hc
    rw [← Option.some.inj hc]
    exact (Bool.and_eq_true_iff.mp h).1

theorem isSymbolChar_of_isSymbol {name : OperatorName} (h : name.isSymbol = true) {c : Char}
    (hc : c ∈ name.chars) : isSymbolChar c = true :=
  List.all_eq_true.mp (Bool.and_eq_true_iff.mp h).2 c hc

/-- A name is all one word. -/
theorem isWordPart_of_mem {name : OperatorName} {c : Char} (hc : c ∈ name.chars) :
    isWordPart c = true := by
  rcases Bool.or_eq_true_iff.mp name.valid with hk | hs
  · unfold Verdict.isKeyword at hk
    change c ∈ name.text.toList at hc
    cases hn : name.text.toList with
    | nil => rw [hn] at hc; cases hc
    | cons d ds =>
      rw [hn] at hk hc
      obtain ⟨hd, hds⟩ := Bool.and_eq_true_iff.mp hk
      rcases List.mem_cons.mp hc with rfl | hc
      · exact isWordPart_of_isAlphanum (by rw [Char.isAlphanum, hd, Bool.true_or])
      · rcases Bool.or_eq_true_iff.mp (List.all_eq_true.mp hds c hc) with hn | hu
        · exact isWordPart_of_isAlphanum hn
        · rw [beq_iff_eq.mp hu]
          decide
  · exact isWordPart_of_isSymbolChar (isSymbolChar_of_isSymbol hs hc)

end OperatorName

/-! ## 3. Operators by themselves -/

/-- Only symbols have the characters that operators are told by. -/
theorem isSymbolChar_of_isSymbolic {r : Registry} {c : Char} (h : r.grammar.isSymbolic c = true) :
    isSymbolChar c = true := by
  obtain ⟨name, -, hname⟩ := List.any_eq_true.mp h
  obtain ⟨hsymbol, hmem⟩ := Bool.and_eq_true_iff.mp hname
  exact OperatorName.isSymbolChar_of_isSymbol hsymbol (List.contains_iff_mem.mp hmem)

/-- The name of the operator an element is, if it is one. -/
def Element.operatorName? : Element → Option OperatorName
  | comparison operator => some operator.name
  | connective operator => some operator.name
  | negation operator => some operator.name
  | _ => none

theorem chars_of_operatorName? {e : Element} {name : OperatorName}
    (h : e.operatorName? = some name) : e.chars = name.chars := by
  cases e with
  | comparison operator =>
    cases h
    rfl
  | connective operator =>
    cases h
    rfl
  | negation operator =>
    cases h
    rfl
  | _ => cases h

section Operators

variable {r : Registry} {e : Element} {name : OperatorName}

theorem readsBack_of_operatorName? (he : e.Legible r) (hn : e.operatorName? = some name) :
    e.ReadsBack r := by
  cases e with
  | operand o => cases hn
  | _ => exact he

theorem name_mem_of_readsBack (he : e.ReadsBack r) (hn : e.operatorName? = some name) :
    name ∈ r.names := by
  have hmem : ∀ {α : Type} [Named α] {set : List α} {operator : α},
      OperatorSet.find? (OperatorSet.nameOf operator) set = some operator →
      Named.name operator ∈ set.map Named.name :=
    fun h => List.mem_map.mpr ⟨_, (OperatorSet.mem_of_find? h).1, rfl⟩
  rw [Registry.names, List.mem_append, List.mem_append]
  cases e with
  | comparison operator => exact .inl (.inl (Option.some.inj hn ▸ hmem he))
  | connective operator => exact .inl (.inr (Option.some.inj hn ▸ hmem he))
  | negation operator => exact .inr (Option.some.inj hn ▸ hmem he)
  | _ => cases hn

theorem operator?_of_readsBack (hr : r.Distinct) (he : e.ReadsBack r)
    (hn : e.operatorName? = some name) : r.grammar.operator? name.chars = some e := by
  have hname : String.ofList name.chars = name.text := String.ofList_toList
  have hlookups : r.grammar.operator? name.chars
      = ((r.comparison? name.text).map Element.comparison <|>
        (r.connective? name.text).map Element.connective <|>
        (r.negation? name.text).map Element.negation) := by
    rw [Grammar.operator?, hname]
    rfl
  rw [hlookups]
  cases e with
  | comparison operator =>
    cases hn
    rw [show r.comparison? operator.name.text = some operator from he]
    rfl
  | connective operator =>
    cases hn
    have hm := (OperatorSet.mem_of_find? he).1
    rw [show r.connective? operator.name.text = some operator from he,
      show r.comparison? operator.name.text = none from
        OperatorSet.find?_eq_none_of_ne fun a ha => hr.comparison_ne_connective a ha operator hm]
    rfl
  | negation operator =>
    cases hn
    have hm := (OperatorSet.mem_of_find? he).1
    rw [show r.negation? operator.name.text = some operator from he,
      show r.comparison? operator.name.text = none from
        OperatorSet.find?_eq_none_of_ne fun a ha => hr.comparison_ne_negation a ha operator hm,
      show r.connective? operator.name.text = none from
        OperatorSet.find?_eq_none_of_ne fun a ha => hr.connective_ne_negation a ha operator hm]
    rfl
  | _ => cases hn

theorem isOperatorChunk_name (h : name ∈ r.names) :
    r.grammar.isOperatorChunk name.chars = true := by
  rw [Grammar.isOperatorChunk, Bool.or_eq_true]
  cases hk : name.isKeyword with
  | true =>
    right
    exact List.any_eq_true.mpr ⟨name, h, by rw [hk, beq_self_eq_true, Bool.and_self]⟩
  | false =>
    left
    have hs : name.isSymbol = true := by rw [name.isSymbol_eq_not_isKeyword, hk]; rfl
    rw [Bool.and_eq_true, Bool.not_eq_true', List.isEmpty_eq_false_iff]
    refine ⟨name.chars_ne_nil, List.all_eq_true.mpr fun c hc => ?_⟩
    exact List.any_eq_true.mpr ⟨name, h, by rw [hs, List.contains_iff_mem.mpr hc, Bool.and_self]⟩

/-- **An operator by itself is read as one.** -/
theorem readFront_operator (hr : r.Distinct) (he : e.ReadsBack r) (hn : e.operatorName? = some name)
    {rest : List Char} (hg : AtGap rest) :
    r.grammar.readFront (e.chars ++ rest) = .ok ([e], rest) := by
  have hblank : ∀ c ∈ name.chars, isBlank c = false :=
    fun c hc => (isWordPart_iff.mp (OperatorName.isWordPart_of_mem hc)).1
  have hchunk := chunk_append hblank hg
  rw [chars_of_operatorName? hn, Grammar.readFront, hchunk.1, hchunk.2,
    if_pos (isOperatorChunk_name (name_mem_of_readsBack he hn)), Grammar.readOperator,
    operator?_of_readsBack hr he hn]
  rfl

end Operators

/-! ## 4. Operands -/

/-- A word that is read as an operand, and as nothing else. -/
structure WordOf (o : Operand) (w : List Char) : Prop where
  parts : ∀ c ∈ w, isWordPart c = true
  head : ∀ c, w.head? = some c → c.isAlphanum = true ∨ c = '-' ∨ c = '.'
  letter : ∃ c ∈ w, c.isAlphanum = true
  formed : isLiteralWord w = true ∨ isPlainName w = true
  operand : Operand.ofLexeme isPlainName w = .ok o

theorem isQuote_of_wordHead {c : Char} (h : c.isAlphanum = true ∨ c = '-' ∨ c = '.') :
    isQuote c = false := by
  refine Bool.eq_false_iff.mpr fun hq => ?_
  rcases eq_of_isQuote hq with rfl | rfl
  · exact absurd h (by decide)
  · exact absurd h (by decide)

theorem not_alpha_of_numberHead {c : Char} (h : c.isDigit = true ∨ c = '-' ∨ c = '.') :
    c.isAlpha = false := by
  rcases h with h | rfl | rfl
  · refine Bool.eq_false_iff.mpr fun ha => ?_
    have hd := toNat_of_isDigit h
    have hl := toNat_of_isAlpha ha
    omega
  · rfl
  · rfl

theorem exists_letter_of_isPlainName {w : List Char} (h : isPlainName w = true) :
    ∃ c cs, w = c :: cs ∧ c.isAlpha = true := by
  unfold isPlainName at h
  split at h
  · cases h
  · rename_i c cs
    have hc := (Bool.and_eq_true_iff.mp h).1
    exact ⟨c, cs, rfl, (Bool.and_eq_true_iff.mp hc).1⟩

/-- A name begins with a letter, and a number does not. -/
theorem isLiteral_of_isPlainName {w : List Char} (h : isPlainName w = true) :
    Number.isLiteral w = false := by
  obtain ⟨c, cs, rfl, hc⟩ := exists_letter_of_isPlainName h
  refine Bool.eq_false_iff.mpr fun hl => ?_
  have hhead := Number.head?_of_isLiteral hl rfl
  rw [not_alpha_of_numberHead hhead] at hc
  cases hc

theorem wordOf_var {name : String} (h : (Operand.var name).Legible) :
    WordOf (.var name) name.toList := by
  obtain ⟨hname, ht, hf⟩ := h
  have hne : ∀ s : String, name ≠ s → name.toList ≠ s.toList := fun s hs he =>
    hs (String.toList_inj.mp he)
  obtain ⟨c, cs, hw, hc⟩ := exists_letter_of_isPlainName hname
  have halnum : c.isAlphanum = true := by rw [Char.isAlphanum, hc, Bool.true_or]
  have hstart : ∀ d, name.toList.head? = some d → d.isAlphanum = true := by
    intro d hd
    rw [hw] at hd
    rw [← Option.some.inj hd]
    exact halnum
  have hquote : ∀ d, name.toList.head? = some d → isQuote d = false := fun d hd =>
    isQuote_of_wordHead (.inl (hstart d hd))
  have hliteral : isLiteralWord name.toList = false := by
    rw [isLiteralWord, isLiteral_of_isPlainName hname, readTruth?_of_ne (hne _ ht) (hne _ hf)]
    rfl
  refine ⟨isWordPart_of_isPlainName hname, fun d hd => .inl (hstart d hd),
    ⟨c, by rw [hw]; exact List.mem_cons_self, halnum⟩, .inr hname, ?_⟩
  have hread := (Operand.Classified.name (unquote?_of_head? hquote) hliteral hname).eq
  rwa [String.ofList_toList] at hread

theorem head?_write {x : Number} (h : x.isFinite = true) {c : Char} (hc : x.write.head? = some c) :
    c.isDigit = true ∨ c = '-' ∨ c = '.' := Number.head?_of_isLiteral (Number.isLiteral_write h) hc

/-- **The text of a finite number is read as that number**, whatever else is a name. -/
theorem ofLexeme_write {isName : List Char → Bool} {x : Number} (h : x.isFinite = true) :
    Operand.ofLexeme isName x.write = .ok (.number x) := by
  have hquote : ∀ c, x.write.head? = some c → isQuote c = false := by
    intro c hc
    refine isQuote_of_wordHead ((head?_write h hc).imp_left fun hd => ?_)
    rw [Char.isAlphanum, hd, Bool.or_true]
  exact (Operand.Classified.number (unquote?_of_head? hquote) (Number.isLiteral_write h)
    (Number.read?_write h)).eq

theorem wordOf_number {x : Number} (h : (Operand.number x).Legible) :
    WordOf (.number x) x.write := by
  have hliteral := Number.isLiteral_write h
  have hstart : ∀ c, x.write.head? = some c → c.isAlphanum = true ∨ c = '-' ∨ c = '.' :=
    fun c hc => (head?_write h hc).imp_left fun hd => by rw [Char.isAlphanum, hd, Bool.or_true]
  refine ⟨isWordPart_of_isLiteral hliteral, hstart, ?_, .inl ?_, ofLexeme_write h⟩
  · obtain ⟨negative, body, d, hw, hb, -⟩ := Number.write_eq_sign h
    obtain ⟨c, hc, hd⟩ := exists_digit_of_isNumeral hb
    have hmem : c ∈ x.write := by
      rw [hw]
      exact List.mem_append_right _ hc
    exact ⟨c, hmem, by rw [Char.isAlphanum, hd, Bool.or_true]⟩
  · rw [isLiteralWord, hliteral, Bool.true_or]

theorem wordOf_truth (b : Bool) : WordOf (.truth b) (truthWord b).toList := by
  have hparts := isWordPart_of_mem_truthWord b
  cases b with
  | true =>
    refine ⟨hparts, fun c hc => .inl ?_, ⟨'t', by decide, by decide⟩, .inl rfl, rfl⟩
    rw [← Option.some.inj hc]
    decide
  | false =>
    refine ⟨hparts, fun c hc => .inl ?_, ⟨'f', by decide, by decide⟩, .inl rfl, rfl⟩
    rw [← Option.some.inj hc]
    decide

/-- A word with the form of an operand has a letter or a digit. -/
theorem exists_isAlphanum_of_form {w : List Char}
    (h : isLiteralWord w = true ∨ isPlainName w = true) : ∃ c ∈ w, c.isAlphanum = true := by
  rcases h with h | h
  · rcases Bool.or_eq_true_iff.mp h with h | h
    · obtain ⟨negative, body, rfl, hb⟩ := (Number.isLiteral_iff w).mp h
      obtain ⟨c, hc, hd⟩ := exists_digit_of_isNumeral hb
      exact ⟨c, List.mem_append_right _ hc, by rw [Char.isAlphanum, hd, Bool.or_true]⟩
    · obtain ⟨b, hb⟩ := Option.isSome_iff_exists.mp h
      rw [eq_of_readTruth? hb]
      exact (wordOf_truth b).letter
  · obtain ⟨c, cs, rfl, hc⟩ := exists_letter_of_isPlainName h
    exact ⟨c, List.mem_cons_self, by rw [Char.isAlphanum, hc, Bool.true_or]⟩

/-- A word that has no form of an operand is none. -/
theorem ofLexeme_of_no_form {w : List Char} (hq : ∀ c, w.head? = some c → isQuote c = false)
    (hliteral : isLiteralWord w = false) (hname : isPlainName w = false) :
    Operand.ofLexeme isPlainName w = .error (.badName (String.ofList w)) :=
  (Operand.Classified.badName (unquote?_of_head? hq) hliteral hname).eq

/-- Symbols alone have no form of an operand. -/
theorem no_form_of_symbols {w : List Char} (h : ∀ c ∈ w, isSymbolChar c = true) :
    isLiteralWord w = false ∧ isPlainName w = false := by
  have hno : ¬ (isLiteralWord w = true ∨ isPlainName w = true) := by
    intro hform
    obtain ⟨c, hc, halnum⟩ := exists_isAlphanum_of_form hform
    rw [isAlphanum_of_isSymbolChar (h c hc)] at halnum
    cases halnum
  exact ⟨Bool.eq_false_iff.mpr fun hl => hno (.inl hl),
    Bool.eq_false_iff.mpr fun hn => hno (.inr hn)⟩

/-! ## 5. Literals between quotes -/

theorem cutAtQuote_of_not_hasUnescaped {q : Char} {escaped : Bool} {body : List Char}
    (h : hasUnescaped q escaped body = false) (cs : List Char) :
    cutAtQuote q escaped (body ++ cs)
      = (cutAtQuote q (endsEscaped escaped body) cs).map fun cut => (body ++ cut.1, cut.2) := by
  induction body generalizing escaped with
  | nil =>
    show cutAtQuote q escaped cs = (cutAtQuote q escaped cs).map id
    rw [Option.map_id, id]
  | cons c body ih =>
    obtain ⟨hc, hbody⟩ := Bool.or_eq_false_iff.mp h
    rw [List.cons_append, cutAtQuote, hc, if_neg Bool.false_ne_true, ih hbody, Option.map_map]
    rfl

/-- Where the body escapes its quote, the next quote behind is the first that is not escaped. -/
theorem cutAtQuote_of_endsEscaped {q : Char} {body : List Char}
    (hq : hasUnescaped q false body = false) (hend : endsEscaped false body = true)
    (behind : List Char) :
    cutAtQuote q false (body ++ q :: behind)
      = (cutAtQuote q false behind).map fun cut => (body ++ q :: cut.1, cut.2) := by
  have hnext : escapesNext true q = false := by rw [escapesNext, Bool.not_true, Bool.and_false]
  have hescaped : ¬ (q == q && !true) = true := by
    rw [Bool.not_true, Bool.and_false]
    exact Bool.false_ne_true
  rw [cutAtQuote_of_not_hasUnescaped hq, hend, cutAtQuote, if_neg hescaped, hnext, Option.map_map]
  rfl

theorem cutAtAnyQuote_of_forall {q : Char} {body behind : List Char} {n : Nat} {rest : List Char}
    (hb : closing? behind = some (n, rest))
    (h : ∀ before more, body = before ++ q :: more → closing? (more ++ q :: behind) = none) :
    cutAtAnyQuote q (body ++ q :: behind) = some (body, n, rest) := by
  induction body with
  | nil => simp only [List.nil_append, cutAtAnyQuote, beq_self_eq_true, if_true, hb]
  | cons c body ih =>
    have htail := ih fun before more he => h (c :: before) more (by rw [he]; rfl)
    have hhere : (if c == q then closing? (body ++ q :: behind) else none) = none := by
      split
      · rename_i hc
        exact h [] body (by rw [beq_iff_eq.mp hc]; rfl)
      · rfl
    rw [List.cons_append, cutAtAnyQuote, hhere, htail]
    rfl

theorem forall_of_cutAtAnyQuote {q : Char} {body behind : List Char} {n : Nat} {rest : List Char}
    (h : cutAtAnyQuote q (body ++ q :: behind) = some (body, n, rest)) {before more : List Char}
    (he : body = before ++ q :: more) : closing? (more ++ q :: behind) = none := by
  induction before generalizing body n rest with
  | nil =>
    subst he
    simp only [List.nil_append, List.cons_append, cutAtAnyQuote, beq_self_eq_true, if_true] at h
    cases hc : closing? (more ++ q :: behind) with
    | none => rfl
    | some cut =>
      rw [hc] at h
      cases h
  | cons c before ih =>
    subst he
    simp only [List.cons_append, cutAtAnyQuote] at h
    split at h
    · cases h
    · obtain ⟨⟨found, m, left⟩, hcut, hc⟩ := Option.map_eq_some_iff.mp h
      have hfound : found = before ++ q :: more := (List.cons.inj (Prod.mk.inj hc).1).2
      subst hfound
      exact ih hcut rfl

/-- The lexeme of a literal begins and ends with its quote. -/
theorem exists_body_of_literalTail {q : Char} {cs : List Char} {tail : Tail}
    (h : literalTail q cs = some tail) : ∃ body, tail.lexeme = some (q :: body ++ [q]) := by
  simp only [literalTail, Option.orElse_eq_orElse, Option.orElse_eq_or, Option.or_eq_some_iff] at h
  obtain h | ⟨-, h⟩ := h
  · obtain ⟨cut, -, h⟩ := Option.bind_eq_some_iff.mp h
    obtain ⟨_, -, rfl⟩ := Option.map_eq_some_iff.mp h
    exact ⟨cut.1, rfl⟩
  · obtain ⟨cut, -, rfl⟩ := Option.map_eq_some_iff.mp h
    exact ⟨cut.1, rfl⟩

theorem eq_of_quoted {q : Char} {a b : List Char} (h : q :: a ++ [q] = q :: b ++ [q]) : a = b :=
  (List.cons.inj (List.append_cancel_right h)).2

/-- **A literal that ends at its own quote is read up to there.** -/
theorem literalTail_of_endsThere {q : Char} {body rest : List Char}
    (hq : hasUnescaped q false body = false) (hr : AtGap rest) {n : Nat}
    (hend : EndsThere q body (List.replicate n ')' ++ rest)) :
    literalTail q (body ++ q :: (List.replicate n ')' ++ rest))
      = some ⟨some (q :: body ++ [q]), n, rest⟩ := by
  have hclosing := closing?_replicate hr n
  cases he : endsEscaped false body with
  | false =>
    have hcut : cutAtQuote q false (body ++ q :: (List.replicate n ')' ++ rest))
        = some (body, List.replicate n ')' ++ rest) := by
      rw [cutAtQuote_of_not_hasUnescaped hq, he, cutAtQuote, beq_self_eq_true, if_pos (by rfl)]
      show some (body ++ [], _) = _
      rw [List.append_nil]
    rw [literalTail, hcut]
    show (tailWith _ _ <|> _) = _
    rw [tailWith, hclosing]
    rfl
  | true =>
    obtain ⟨hbehind, hbody⟩ := hend he
    rw [literalTail, cutAtQuote_of_endsEscaped hq he, cutAtAnyQuote_of_forall hclosing hbody]
    cases hc : cutAtQuote q false (List.replicate n ')' ++ rest) with
    | none => rfl
    | some cut =>
      show (tailWith _ cut.2 <|> _) = _
      rw [tailWith, hbehind cut.1 cut.2 hc]
      rfl

/-- **A literal that is read up to its own quote ends there.** -/
theorem endsThere_of_literalTail {q : Char} {body behind : List Char} {tail : Tail}
    (hq : hasUnescaped q false body = false)
    (h : literalTail q (body ++ q :: behind) = some tail)
    (hlexeme : tail.lexeme = some (q :: body ++ [q])) : EndsThere q body behind := by
  intro he
  rw [literalTail, cutAtQuote_of_endsEscaped hq he] at h
  simp only [Option.orElse_eq_orElse, Option.orElse_eq_or, Option.or_eq_some_iff] at h
  obtain h | ⟨hnone, h⟩ := h
  · -- the literal would go on behind its quote
    obtain ⟨_, hcut, h⟩ := Option.bind_eq_some_iff.mp h
    obtain ⟨cut, -, rfl⟩ := Option.map_eq_some_iff.mp hcut
    obtain ⟨_, -, rfl⟩ := Option.map_eq_some_iff.mp h
    have hlonger := congrArg List.length (eq_of_quoted (Option.some.inj hlexeme))
    rw [List.length_append, List.length_cons] at hlonger
    omega
  · constructor
    · intro before rest hcut
      rw [hcut] at hnone
      exact Option.map_eq_none_iff.mp hnone
    · intro before rest hbody
      obtain ⟨⟨body', n, rest'⟩, hcut, rfl⟩ := Option.map_eq_some_iff.mp h
      have hsame := eq_of_quoted (Option.some.inj hlexeme)
      subst hsame
      exact forall_of_cutAtAnyQuote hcut hbody

theorem isQuote_quoteFor (body : String) : isQuote (quoteFor body) = true := by
  unfold quoteFor
  split <;> rfl

theorem hasUnescaped_quoteFor {body : String} (h : (Operand.text body).Legible) :
    hasUnescaped (quoteFor body) false body.toList = false := by
  unfold quoteFor
  split
  · rename_i hs
    rcases h with hq | hq
    · rw [hq] at hs
      cases hs
    · exact hq
  · rename_i hs
    exact Bool.eq_false_iff.mpr hs

/-- **A literal that was read is legible**: the quote it was read from is only escaped in it. -/
theorem legible_of_text {isName : List Char → Bool} {lexeme : List Char} {body : String}
    (h : Operand.ofLexeme isName lexeme = .ok (.text body)) : (Operand.text body).Legible := by
  have hread := Operand.classified isName lexeme
  rw [h] at hread
  cases hread with
  | @text q body hq hbare =>
    rw [Operand.Legible, String.toList_ofList]
    rcases eq_of_isQuote (isQuote_of_unquote? hq) with rfl | rfl
    · exact .inl hbare
    · exact .inr hbare

/-- **The text of a literal is read as that literal**, whatever is a name. -/
theorem ofLexeme_text {isName : List Char → Bool} {body : String}
    (h : (Operand.text body).Legible) :
    Operand.ofLexeme isName (Operand.text body).chars = .ok (.text body) := by
  rw [Operand.chars, Operand.ofLexeme_quoted isName (isQuote_quoteFor body),
    hasUnescaped_quoteFor h, if_neg Bool.false_ne_true, String.ofList_toList]

/-- An operand is written as a word or as a literal between quotes. -/
theorem wordOf_or_text {o : Operand} (ho : o.Legible) :
    WordOf o o.chars ∨ ∃ body, o = .text body := by
  cases o with
  | var name => exact .inl (wordOf_var ho)
  | number x => exact .inl (wordOf_number ho)
  | truth b => exact .inl (wordOf_truth b)
  | text body => exact .inr ⟨body, rfl⟩

/-- **An operand, closing brackets, and a gap** are read as that. -/
theorem pieceTail_operand {o : Operand} (ho : o.Legible) {rest : List Char} (hg : AtGap rest)
    {n : Nat} (hend : o.EndsBefore (List.replicate n ')' ++ rest)) :
    pieceTail (o.chars ++ (List.replicate n ')' ++ rest))
        = some ⟨some o.chars, n, rest⟩ ∧
      Operand.ofLexeme isPlainName o.chars = .ok o := by
  rcases wordOf_or_text ho with hw | ⟨body, rfl⟩
  · refine ⟨?_, hw.operand⟩
    rw [pieceTail_word hw.parts (fun c hc => isQuote_of_wordHead (hw.head c hc)) hg,
      if_pos (Bool.or_eq_true_iff.mpr hw.formed)]
  · have hq := isQuote_quoteFor body
    have hbare := hasUnescaped_quoteFor ho
    refine ⟨?_, ofLexeme_text ho⟩
    rw [Operand.chars, List.cons_append, List.cons_append, pieceTail_quote hq, List.append_assoc]
    exact literalTail_of_endsThere hbare hg hend

/-! ## 6. Operands that were read -/

/-- **An operand that was read is read again from its text**, whatever is a name, unless it is
    infinite. Its text is of the same kind as the lexeme, and of none that is tried before; a name or
    a truth value is the lexeme itself. -/
theorem ofLexeme_chars {isName : List Char → Bool} {lexeme : List Char} {o : Operand}
    (h : Operand.ofLexeme isName lexeme = .ok o)
    (hfinite : ∀ negative, o ≠ .number (.real negative .infinity)) :
    Operand.ofLexeme isName o.chars = .ok o := by
  have hread := Operand.classified isName lexeme
  rw [h] at hread
  cases hread with
  | text => exact ofLexeme_text (legible_of_text h)
  | number hq hl hx =>
    obtain ⟨negative, m, rfl⟩ := Number.exists_real_of_read? hl hx
    have hm : m ≠ .infinity := by
      intro he
      exact hfinite negative (by rw [he])
    exact ofLexeme_write (Number.isFinite_real.mpr hm)
  | @truth b hq hl hb =>
    rw [eq_of_readTruth? hb] at h
    exact h
  | name =>
    rw [Operand.chars, String.toList_ofList]
    exact h

/-- A literal between double quotes, in which a single quote is not escaped. -/
theorem ofLexeme_chars_quoted :
    Operand.ofLexeme isPlainName "\"it's\"".toList = .ok (.text "it's") ∧
      (∀ negative, Operand.text "it's" ≠ .number (.real negative .infinity)) ∧
      Operand.ofLexeme isPlainName (Operand.text "it's").chars = .ok (.text "it's") :=
  have hread : Operand.ofLexeme isPlainName "\"it's\"".toList = .ok (.text "it's") := rfl
  ⟨hread, nofun, ofLexeme_chars hread nofun⟩

end Verdict
