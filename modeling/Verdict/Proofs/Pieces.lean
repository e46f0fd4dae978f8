import Verdict.Proofs.Numerals

/-!
# Pieces where names have the usual form

How much of a piece is its lead is found by trying (`firstTry`). Nothing has to be tried where every
part of a lead is one character at which no operand begins: then the lead is the longest run of such
characters, and what stands behind it decides. So it is in the grammars of this file, whose names have
the usual form and whose one symbol for a negation, if they have any, is `!` (`Grammar.Plain`).

Behind the lead stands a literal between quotes or a word. Which of the two it is shows in the first
character, and a word ends with the closing brackets before the gap.

* `head?_firstTry` -- the first try that succeeds is the one behind the longest run.
* `readFront_of_piece` -- reading a piece: lead, body, closing brackets.
* `pieceTail_word`, `pieceTail_quote` -- the two kinds of bodies.
-/

namespace Verdict

open Text

/-! ## 1. The longest run is tried first -/

theorem findSome?_eq_of_forall {α β : Type} {f : β → Option α} {l : List β} {x : Option α} {b : β}
    (hb : b ∈ l) (hx : f b = x) (h : ∀ d ∈ l, f d = none ∨ f d = x) : l.findSome? f = x := by
  cases hs : l.findSome? f with
  | none => rw [← hx, List.findSome?_eq_none_iff.mp hs b hb]
  | some y =>
    obtain ⟨d, hd, hy⟩ := List.exists_of_findSome?_eq_some hs
    rcases h d hd with hn | hx
    · rw [hn] at hy
      cases hy
    · rw [← hy, hx]

/-- All parts that fit before the text are its first character, so that the tries behind them are one
    and the same. -/
theorem findSome?_parts {α : Type} {parts : List (List Char)} (tries : List (Option α))
    (single : ∀ part ∈ parts, ∃ c, part = [c]) {c : Char} (hc : [c] ∈ parts) (cs : List Char) :
    (parts.findSome? fun part =>
      if part.isPrefixOf (c :: cs) then (tries[part.length - 1]?).join else none)
      = tries.head?.join := by
  have hzero : tries[0]?.join = tries.head?.join := by rw [List.head?_eq_getElem?]
  refine findSome?_eq_of_forall hc ?_ fun part hp => ?_
  · rw [if_pos (by simp only [List.isPrefixOf, beq_self_eq_true, Bool.and_self])]
    exact hzero
  · obtain ⟨d, rfl⟩ := single part hp
    split
    · exact .inr hzero
    · exact .inl rfl

/-- **Where no piece ends at a character of a lead, only the longest lead counts.** -/
theorem head?_firstTry {α : Type} {parts : List (List Char)} {finish : List Char → Option α}
    (single : ∀ part ∈ parts, ∃ c, part = [c])
    (fails : ∀ c cs, [c] ∈ parts → finish (c :: cs) = none) (cs : List Char) :
    (firstTry parts finish cs).head?.join = finish (cs.dropWhile fun c => parts.contains [c]) := by
  induction cs with
  | nil => rfl
  | cons c cs ih =>
    by_cases hc : [c] ∈ parts
    · have hany : parts.any (·.contains c) = true :=
        List.any_eq_true.mpr ⟨[c], hc, List.contains_iff_mem.mpr (List.mem_singleton_self c)⟩
      have hd : (c :: cs).dropWhile (fun c => parts.contains [c])
          = cs.dropWhile fun c => parts.contains [c] := by
        rw [List.dropWhile_cons, if_pos (List.contains_iff_mem.mpr hc)]
      have hlonger := findSome?_parts (firstTry parts finish cs) single hc cs
      rw [hd, ← ih]
      simp only [firstTry, hany, ↓reduceIte, hlonger, fails c cs hc, List.head?_cons,
        Option.join_some]
      cases (firstTry parts finish cs).head?.join <;> rfl
    · have hany : parts.any (·.contains c) = false := by
        refine List.any_eq_false.mpr fun part hp hcd => ?_
        obtain ⟨d, rfl⟩ := single part hp
        rw [List.mem_singleton.mp (List.contains_iff_mem.mp hcd)] at hc
        exact hc hp
      have hd : (c :: cs).dropWhile (fun c => parts.contains [c]) = c :: cs := by
        rw [List.dropWhile_cons, if_neg (by rw [List.contains_iff_mem]; exact hc)]
      rw [hd, firstTry, hany]
      rfl

/-! ## 2. Grammars whose leads are brackets and `!` -/

/-- Names have the usual form, and a negation by a symbol is `!`. -/
structure Grammar.Plain (g : Grammar) : Prop where
  scanner : g.scanner = none
  negations : ∀ n ∈ g.registry.negations, n.name.isSymbol = true → n = Negation.not

/-- Does the character stand in leads of the grammar? -/
def Grammar.isLead (g : Grammar) (c : Char) : Bool := g.leadParts.contains [c]

/-- The element a character of a lead stands for. -/
def leadElement (c : Char) : Element :=
  if c == '(' then .bracket .opening else .negation .not

namespace Grammar

variable {g : Grammar}

theorem Plain.eq_not (hg : g.Plain) {n : Negation} (h : n ∈ g.symbolNegations) : n = .not :=
  hg.negations n (mem_symbolNegations.mp h).1 (mem_symbolNegations.mp h).2

theorem Plain.mem_leadParts (hg : g.Plain) {part : List Char} (h : part ∈ g.leadParts) :
    part = ['('] ∨ part = ['!'] ∧ Negation.not ∈ g.symbolNegations := by
  rcases List.mem_cons.mp h with h | h
  · exact .inl h
  · obtain ⟨n, hn, he⟩ := List.mem_map.mp h
    have hnot := hg.eq_not hn
    subst hnot
    exact .inr ⟨he.symm, hn⟩

theorem Plain.eq_of_isLead (hg : g.Plain) {c : Char} (h : g.isLead c = true) :
    c = '(' ∨ c = '!' ∧ Negation.not ∈ g.symbolNegations := by
  rcases hg.mem_leadParts (List.contains_iff_mem.mp h) with h | ⟨h, hn⟩
  · exact .inl (List.cons.inj h).1
  · exact .inr ⟨(List.cons.inj h).1, hn⟩

theorem isLead_opening (g : Grammar) : g.isLead '(' = true :=
  List.contains_iff_mem.mpr (List.mem_cons_self)

theorem isLead_of_mem (h : Negation.not ∈ g.symbolNegations) : g.isLead '!' = true :=
  List.contains_iff_mem.mpr (List.mem_cons_of_mem _ (List.mem_map.mpr ⟨_, h, rfl⟩))

/-- **A lead is taken apart character by character.** -/
theorem Plain.leadElements?_eq_map (hg : g.Plain) {cs : List Char}
    (h : ∀ c ∈ cs, g.isLead c = true) :
    leadElements? g.symbolNegations 0 cs = some (cs.map leadElement) := by
  induction cs with
  | nil => rfl
  | cons c cs ih =>
    have htail := ih fun d hd => h d (List.mem_cons_of_mem c hd)
    rcases hg.eq_of_isLead (h c List.mem_cons_self) with rfl | ⟨rfl, hn⟩
    · show (leadElements? g.symbolNegations 0 cs).map (Element.bracket .opening :: ·) = _
      rw [htail]
      rfl
    · have hfind : (g.symbolNegations.find? fun operator =>
          operator.name.chars.isPrefixOf ('!' :: cs)) = some .not := by
        cases hf : g.symbolNegations.find? _ with
        | none => exact absurd rfl (List.find?_eq_none.mp hf _ hn)
        | some n => rw [hg.eq_not (List.mem_of_find?_eq_some hf)]
      have hstep : leadElements? g.symbolNegations 0 ('!' :: cs)
          = (leadElements? g.symbolNegations 0 cs).map (Element.negation .not :: ·) := by
        rw [leadElements?, if_neg (by decide), hfind]
        rfl
      rw [hstep, htail]
      rfl

end Grammar

/-! ## 3. Reading a piece -/

theorem closing?_cons_of_ne {c : Char} {cs : List Char} (hp : c ≠ ')') (hb : isBlank c = false) :
    closing? (c :: cs) = none := by
  have hd : (c :: cs).dropWhile (· == ')') = c :: cs := by
    rw [List.dropWhile_cons, if_neg (by simpa only [beq_iff_eq] using hp)]
  simp only [closing?, hd, List.head?_cons, Option.all_some, hb, Bool.false_eq_true, ↓reduceIte]

theorem pieceTail_lead {c : Char} (h : c = '(' ∨ c = '!') (cs : List Char) :
    pieceTail (c :: cs) = none := by
  have hword : ∃ w, word (c :: cs) = c :: w := by
    rcases h with rfl | rfl
    · exact ⟨_, rfl⟩
    · exact ⟨_, rfl⟩
  obtain ⟨w, hw⟩ := hword
  have hend : tailWith none (c :: cs) = none := by
    rw [tailWith, closing?_cons_of_ne (by rcases h with rfl | rfl <;> decide)
      (by rcases h with rfl | rfl <;> decide)]
    rfl
  rcases h with rfl | rfl
  · simp only [pieceTail, wordTail, hw, hend]
    rfl
  · simp only [pieceTail, wordTail, hw, hend]
    rfl

/-- The elements of a piece behind its lead, where names have the usual form. -/
def Tail.elements (tail : Tail) : Except Fault Condition :=
  let closing : Condition := List.replicate tail.closing (.bracket .closing)
  match tail.lexeme with
  | none => .ok closing
  | some lexeme => (Operand.ofLexeme isPlainName lexeme).map fun o => .operand o :: closing

@[simp] theorem Tail.elements_none (n : Nat) (rest : List Char) :
    Tail.elements ⟨none, n, rest⟩ = .ok (List.replicate n (.bracket .closing)) := rfl

@[simp] theorem Tail.elements_some (lexeme : List Char) (n : Nat) (rest : List Char) :
    Tail.elements ⟨some lexeme, n, rest⟩
      = (Operand.ofLexeme isPlainName lexeme).map fun o =>
          .operand o :: List.replicate n (.bracket .closing) := rfl

namespace Grammar

variable {g : Grammar}

/-- A piece is its longest lead and whatever can end a piece behind it. -/
theorem Plain.piece_read? (hg : g.Plain) (cs : List Char) :
    Piece.read? g.leadParts pieceTail cs
      = (pieceTail (cs.dropWhile g.isLead)).map fun tail =>
          ⟨cs.takeWhile g.isLead, tail⟩ := by
  have hlead : cs.take (cs.length - (cs.dropWhile g.isLead).length) = cs.takeWhile g.isLead := by
    have happ := List.takeWhile_append_dropWhile (p := g.isLead) (l := cs)
    have hlen := congrArg List.length happ
    rw [List.length_append] at hlen
    calc cs.take (cs.length - (cs.dropWhile g.isLead).length)
        = (cs.takeWhile g.isLead ++ cs.dropWhile g.isLead).take
            (cs.length - (cs.dropWhile g.isLead).length) := by rw [happ]
      _ = cs.takeWhile g.isLead := List.take_left' (by omega)
  rw [Piece.read?, head?_firstTry]
  · show ((pieceTail (cs.dropWhile g.isLead)).map _).map _ = _
    rw [Option.map_map]
    refine congrArg (fun f => Option.map f _) (funext fun tail => ?_)
    show (⟨cs.take (cs.length - (cs.dropWhile g.isLead).length), tail⟩ : Piece) = _
    rw [hlead]
  · intro part hp
    rcases hg.mem_leadParts hp with h | ⟨h, -⟩
    · exact ⟨_, h⟩
    · exact ⟨_, h⟩
  · intro c ds hc
    have hlead : c = '(' ∨ c = '!' :=
      (hg.eq_of_isLead (List.contains_iff_mem.mpr hc)).imp_right And.left
    rw [pieceTail_lead hlead]
    rfl

/-- **Reading a piece**: its longest lead, its body, its closing brackets. -/
theorem Plain.readFront_of_piece (hg : g.Plain) {cs : List Char}
    (h : g.isOperatorChunk (chunk cs) = false) :
    g.readFront cs =
      match pieceTail (cs.dropWhile g.isLead) with
      | none => .error (.unknownElement (String.ofList (chunk cs)))
      | some tail => tail.elements.map fun es =>
          ((cs.takeWhile g.isLead).map leadElement ++ es, tail.rest) := by
  rw [readFront, h, hg.piece_read?]
  cases pieceTail (cs.dropWhile g.isLead) with
  | none => rfl
  | some tail =>
    obtain ⟨lexeme, closing, rest⟩ := tail
    have hall : ∀ c ∈ cs.takeWhile g.isLead, g.isLead c = true :=
      List.all_eq_true.mp List.all_takeWhile
    have hname : g.isName = isPlainName := by
      funext w
      rw [isName, hg.scanner]
      rfl
    show (g.pieceElements ⟨cs.takeWhile g.isLead, ⟨lexeme, closing, rest⟩⟩).map _ = _
    simp only [pieceElements, hg.leadElements?_eq_map hall, hname]
    cases lexeme with
    | none =>
      show Except.ok _ = Except.ok _
      rw [List.append_nil]
    | some lexeme =>
      cases ho : Operand.ofLexeme isPlainName lexeme with
      | error x =>
        simp only [Tail.elements, ho]
        rfl
      | ok o =>
        simp only [Tail.elements, ho]
        show Except.ok _ = Except.ok _
        rw [List.append_assoc]
        rfl

end Grammar

/-! ## 4. Bodies -/

theorem cut_closings {rest : List Char} (hr : ∀ c, rest.head? = some c → c ≠ ')') (n : Nat) :
    (List.replicate n ')' ++ rest).takeWhile (· == ')') = List.replicate n ')' ∧
      (List.replicate n ')' ++ rest).dropWhile (· == ')') = rest :=
  cut_append (fun _ hc => beq_iff_eq.mpr (List.eq_of_mem_replicate hc))
    fun c hc => beq_eq_false_iff_ne.mpr (hr c hc)

theorem closing?_replicate {rest : List Char} (hr : AtGap rest) (n : Nat) :
    closing? (List.replicate n ')' ++ rest) = some (n, rest) := by
  have hne : ∀ c, rest.head? = some c → c ≠ ')' := by
    intro c hc he
    have hb := hr c hc
    rw [he] at hb
    exact absurd hb (by decide)
  have hcut := cut_closings hne n
  rw [closing?, hcut.1, hcut.2, if_pos ((all_head?_isBlank_iff rest).mpr hr), List.length_replicate]

/-- A character of a word: neither a blank nor a closing bracket. -/
def isWordPart (c : Char) : Bool := !isBlank c && c != ')'

theorem isWordPart_iff {c : Char} : isWordPart c = true ↔ isBlank c = false ∧ c ≠ ')' := by
  rw [isWordPart, Bool.and_eq_true, Bool.not_eq_true', bne_iff_ne]

theorem isWordPart_of_toNat {c : Char} (h : 0x21 ≤ c.toNat) (h' : c.toNat ≤ 0x7E)
    (hp : c ≠ ')') : isWordPart c = true := by
  have hb : isBlank c = false := by
    refine Bool.eq_false_iff.mpr fun hb => ?_
    obtain ⟨range, hm, hlo, hhi⟩ := (inRanges_iff blankRanges c).mp hb
    have hout : ∀ range ∈ blankRanges, range.2 < 0x21 ∨ 0x7E < range.1 := by decide
    rcases hout range hm with h | h
    · omega
    · omega
  exact isWordPart_iff.mpr ⟨hb, hp⟩

theorem isWordPart_of_isAlphanum {c : Char} (h : c.isAlphanum = true) : isWordPart c = true := by
  have hp : c ≠ ')' := by
    intro he
    rw [he] at h
    exact absurd h (by decide)
  have hc : (65 ≤ c.toNat ∧ c.toNat ≤ 90 ∨ 97 ≤ c.toNat ∧ c.toNat ≤ 122) ∨
      48 ≤ c.toNat ∧ c.toNat ≤ 57 :=
    (Bool.or_eq_true_iff.mp h).imp toNat_of_isAlpha toNat_of_isDigit
  exact isWordPart_of_toNat (by omega) (by omega) hp

theorem isWordPart_of_isLiteral {w : List Char} (h : Number.isLiteral w = true) :
    ∀ c ∈ w, isWordPart c = true := by
  obtain ⟨negative, body, rfl, hb⟩ := (Number.isLiteral_iff w).mp h
  intro c hc
  rcases List.mem_append.mp hc with hc | hc
  · cases negative with
    | true =>
      rw [List.mem_singleton.mp hc]
      decide
    | false => cases hc
  · rcases digit_or_point_of_isNumeral hb hc with hd | rfl
    · exact isWordPart_of_isAlphanum (by rw [Char.isAlphanum, hd, Bool.or_true])
    · decide

theorem isWordPart_of_isPlainName {w : List Char} (h : isPlainName w = true) :
    ∀ c ∈ w, isWordPart c = true := by
  cases w with
  | nil => cases h
  | cons d ds =>
    simp only [isPlainName, Bool.and_eq_true, List.all_eq_true, isNameTail, Bool.or_eq_true,
      beq_iff_eq] at h
    intro c hc
    rcases List.mem_cons.mp hc with rfl | hc
    · exact isWordPart_of_isAlphanum (by rw [Char.isAlphanum, h.1.1, Bool.true_or])
    · rcases h.2 c hc with (hn | rfl) | rfl
      · exact isWordPart_of_isAlphanum hn
      · decide
      · decide

theorem word_append {w rest : List Char} (hw : ∀ c ∈ w, isWordPart c = true)
    (hr : ∀ c, rest.head? = some c → isWordPart c = false) :
    word (w ++ rest) = w ∧ afterWord (w ++ rest) = rest := cut_append hw hr

theorem isWordPart_head?_closing {rest : List Char} (hr : AtGap rest) (n : Nat) (c : Char)
    (h : (List.replicate n ')' ++ rest).head? = some c) : isWordPart c = false := by
  cases n with
  | zero =>
    rw [isWordPart, hr c h]
    rfl
  | succ n =>
    rw [← Option.some.inj h]
    decide

/-- Is the character a quote? -/
def isQuote (c : Char) : Bool := c == '\'' || c == '"'

theorem eq_of_isQuote {c : Char} (h : isQuote c = true) : c = '\'' ∨ c = '"' := by
  simpa only [isQuote, Bool.or_eq_true, beq_iff_eq] using h

theorem isQuote_of_not_isWordPart {c : Char} (h : isWordPart c = false) : isQuote c = false := by
  refine Bool.eq_false_iff.mpr fun hq => ?_
  rcases eq_of_isQuote hq with rfl | rfl
  · exact absurd h (by decide)
  · exact absurd h (by decide)

theorem pieceTail_of_not_quote {cs : List Char}
    (h : ∀ c, cs.head? = some c → isQuote c = false) :
    pieceTail cs = (wordTail isLiteralWord cs <|> wordTail isPlainName cs <|>
      tailWith none cs) := by
  have hquoted : quotedTail cs = none := by
    unfold quotedTail
    split
    · exact absurd (h _ rfl) (by decide)
    · exact absurd (h _ rfl) (by decide)
    · rfl
  rw [pieceTail, hquoted]
  rfl

/-- **A word, closing brackets, and a gap**: the word is the operand if it has the form of one, and
    without a word the brackets stand for themselves. -/
theorem pieceTail_word {w rest : List Char} (hw : ∀ c ∈ w, isWordPart c = true)
    (hq : ∀ c, w.head? = some c → isQuote c = false) (hr : AtGap rest) (n : Nat) :
    pieceTail (w ++ (List.replicate n ')' ++ rest))
      = if isLiteralWord w || isPlainName w then some ⟨some w, n, rest⟩
        else if w = [] then some ⟨none, n, rest⟩ else none := by
  have hcut := word_append hw (isWordPart_head?_closing hr n)
  have hq' : ∀ c, (w ++ (List.replicate n ')' ++ rest)).head? = some c → isQuote c = false := by
    intro c hc
    cases w with
    | nil => exact isQuote_of_not_isWordPart (isWordPart_head?_closing hr n c hc)
    | cons d w => exact hq c hc
  have hnone : tailWith none (w ++ (List.replicate n ')' ++ rest))
      = if w = [] then some ⟨none, n, rest⟩ else none := by
    cases w with
    | nil =>
      rw [tailWith, List.nil_append, closing?_replicate hr]
      rfl
    | cons c w =>
      have hc := isWordPart_iff.mp (hw c List.mem_cons_self)
      rw [tailWith, List.cons_append, closing?_cons_of_ne hc.2 hc.1]
      rfl
  rw [pieceTail_of_not_quote hq', hnone, wordTail, wordTail, hcut.1, hcut.2, tailWith,
    closing?_replicate hr]
  cases isLiteralWord w <;> cases isPlainName w <;> rfl

/-- **A literal between quotes** is the only body that begins with a quote. -/
theorem pieceTail_quote {q : Char} (hq : isQuote q = true) (cs : List Char) :
    pieceTail (q :: cs) = literalTail q cs := by
  have hend : tailWith none (q :: cs) = none := by
    rw [tailWith, closing?_cons_of_ne (by rcases eq_of_isQuote hq with rfl | rfl <;> decide)
      (by rcases eq_of_isQuote hq with rfl | rfl <;> decide)]
    rfl
  rcases eq_of_isQuote hq with rfl | rfl
  · have hw : word ('\'' :: cs) = '\'' :: word cs := rfl
    simp only [pieceTail, quotedTail, wordTail, hw, hend]
    cases literalTail '\'' cs <;> rfl
  · have hw : word ('"' :: cs) = '"' :: word cs := rfl
    simp only [pieceTail, quotedTail, wordTail, hw, hend]
    cases literalTail '"' cs <;> rfl

/-! ## 5. Operands by their lexemes -/

theorem eq_of_readTruth? {w : List Char} {b : Bool} (h : readTruth? w = some b) :
    w = (truthWord b).toList := by
  unfold readTruth? at h
  split at h
  · rename_i hw
    cases h
    exact beq_iff_eq.mp hw
  · split at h
    · rename_i hw
      cases h
      exact beq_iff_eq.mp hw
    · cases h

theorem isWordPart_of_mem_truthWord (b : Bool) : ∀ c ∈ (truthWord b).toList, isWordPart c = true := by
  cases b with
  | true => exact List.all_eq_true.mp (by decide)
  | false => exact List.all_eq_true.mp (by decide)

theorem readTruth?_of_ne {w : List Char} (ht : w ≠ "true".toList) (hf : w ≠ "false".toList) :
    readTruth? w = none := by
  rw [readTruth?, if_neg (by rw [beq_iff_eq]; exact ht), if_neg (by rw [beq_iff_eq]; exact hf)]

theorem unquote?_of_head? {w : List Char} (h : ∀ c, w.head? = some c → isQuote c = false) :
    unquote? w = none := by
  cases w with
  | nil => rfl
  | cons c cs =>
    have hc : (c == '\'' || c == '"') = false := h c rfl
    rw [unquote?, hc, Bool.false_and]
    rfl

theorem unquote?_quoted {q : Char} (hq : isQuote q = true) (body : List Char) :
    unquote? (q :: body ++ [q]) = some (q, body) := by
  have hq' : (q == '\'' || q == '"') = true := hq
  have hlast : (body ++ [q]).getLast? = some q := List.getLast?_concat
  rw [List.cons_append, unquote?, hq', hlast, beq_self_eq_true, Bool.and_self, if_pos rfl,
    List.dropLast_concat]

theorem isQuote_of_unquote? {w body : List Char} {q : Char} (h : unquote? w = some (q, body)) :
    isQuote q = true := by
  unfold unquote? at h
  split at h
  · cases h
  · split at h
    · rename_i hq
      cases h
      exact (Bool.and_eq_true_iff.mp hq).1
    · cases h

/-- Between quotes stands a text, unless the same quote is in it and not escaped. -/
theorem Operand.ofLexeme_quoted (isName : List Char → Bool) {q : Char} (hq : isQuote q = true)
    (body : List Char) : ofLexeme isName (q :: body ++ [q])
      = if hasUnescaped q false body then .error (.badQuotation (.ofList (q :: body ++ [q])))
        else .ok (.text (.ofList body)) := by
  rw [ofLexeme, unquote?_quoted hq]

theorem Operand.eq_text_of_quoted {isName : List Char → Bool} {q : Char} (hq : isQuote q = true)
    {body : List Char} {o : Operand} (h : ofLexeme isName (q :: body ++ [q]) = .ok o) :
    o = .text (.ofList body) ∧ hasUnescaped q false body = false := by
  rw [ofLexeme_quoted isName hq] at h
  split at h
  · cases h
  · rename_i hbare
    cases h
    exact ⟨rfl, Bool.eq_false_iff.mpr hbare⟩

/-- **What a lexeme stands for, by its form**: a text between quotes, a number, a truth value, a name;
    of several forms the first one. -/
inductive Operand.Classified (isName : List Char → Bool) (lexeme : List Char) :
    Except Fault Operand → Prop
  | text {q : Char} {body : List Char} (hq : unquote? lexeme = some (q, body))
      (h : hasUnescaped q false body = false) : Classified isName lexeme (.ok (.text (.ofList body)))
  | badQuotation {q : Char} {body : List Char} (hq : unquote? lexeme = some (q, body))
      (h : hasUnescaped q false body = true) :
      Classified isName lexeme (.error (.badQuotation (.ofList lexeme)))
  | number {x : Number} (hq : unquote? lexeme = none) (h : Number.isLiteral lexeme = true)
      (hx : Number.read? lexeme = some x) : Classified isName lexeme (.ok (.number x))
  | truth {b : Bool} (hq : unquote? lexeme = none) (h : Number.isLiteral lexeme = false)
      (hb : readTruth? lexeme = some b) : Classified isName lexeme (.ok (.truth b))
  | name (hq : unquote? lexeme = none) (h : isLiteralWord lexeme = false)
      (hn : isName lexeme = true) : Classified isName lexeme (.ok (.var (.ofList lexeme)))
  | badName (hq : unquote? lexeme = none) (h : isLiteralWord lexeme = false)
      (hn : isName lexeme = false) :
      Classified isName lexeme (.error (.badName (.ofList lexeme)))

theorem Operand.classified (isName : List Char → Bool) (lexeme : List Char) :
    Classified isName lexeme (ofLexeme isName lexeme) := by
  unfold ofLexeme
  split
  · rename_i q body hq
    split
    · rename_i h
      exact .badQuotation hq h
    · rename_i h
      exact .text hq (Bool.eq_false_iff.mpr h)
  · rename_i hq
    unfold ofWord
    cases hl : Number.isLiteral lexeme with
    | true =>
      obtain ⟨x, hx⟩ := Option.isSome_iff_exists.mp (Number.read?_of_isLiteral hl)
      rw [if_pos rfl, hx]
      exact .number hq hl hx
    | false =>
      rw [if_neg Bool.false_ne_true]
      cases hb : readTruth? lexeme with
      | some b => exact .truth hq hl hb
      | none =>
        have hword : isLiteralWord lexeme = false := by
          rw [isLiteralWord, hl, hb, Option.isSome_none, Bool.or_self]
        show Classified isName lexeme (ofName isName lexeme)
        unfold ofName
        split
        · rename_i hn
          exact .name hq hword hn
        · rename_i hn
          exact .badName hq hword (Bool.eq_false_iff.mpr hn)

/-- A lexeme of a form stands for what the form says. -/
theorem Operand.Classified.eq {isName : List Char → Bool} {lexeme : List Char}
    {answer : Except Fault Operand} (h : Classified isName lexeme answer) :
    ofLexeme isName lexeme = answer := by
  have hword : unquote? lexeme = none → isLiteralWord lexeme = false →
      ofLexeme isName lexeme = ofName isName lexeme := by
    intro hq h
    obtain ⟨hl, hb⟩ := Bool.or_eq_false_iff.mp h
    rw [ofLexeme, hq]
    show ofWord isName lexeme = _
    rw [ofWord, hl, if_neg Bool.false_ne_true,
      Option.not_isSome_iff_eq_none.mp (Bool.eq_false_iff.mp hb)]
  cases h with
  | text hq h =>
    rw [ofLexeme, hq]
    exact if_neg (Bool.eq_false_iff.mp h)
  | badQuotation hq h =>
    rw [ofLexeme, hq]
    exact if_pos h
  | number hq h hx =>
    rw [ofLexeme, hq]
    show ofWord isName lexeme = _
    rw [ofWord, if_pos h, hx]
  | truth hq h hb =>
    rw [ofLexeme, hq]
    show ofWord isName lexeme = _
    rw [ofWord, h, if_neg Bool.false_ne_true, hb]
  | name hq h hn => rw [hword hq h, ofName, if_pos hn]
  | badName hq h hn => rw [hword hq h, ofName, hn, if_neg Bool.false_ne_true]

end Verdict
