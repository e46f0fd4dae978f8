import Verdict.Proofs.Pieces

/-!
# A text spelled by its elements

Reading a text keeps its elements and nothing else. This file says how the text is made of them: it
is the lexemes of the elements, in their order and each once, with gaps of blanks around. A gap is
empty only where the elements may touch: behind an opening bracket or a negation by a symbol, and
before a closing bracket. So nothing of the text is lost but blanks, and no element comes from
nowhere.

* `Grammar.Spells` -- the lexemes of an element.
* `Grammar.SpelledBehind` -- lexemes and gaps that spell elements.
* `Grammar.spelled_of_readFrom` -- **what is read spells the text**, where names have the usual form.
* `Grammar.SpelledBehind.isName` -- each variable in it has a name.
-/

namespace Verdict

open Text

/-! ## 1. Lexemes and gaps -/

/-- Behind such an element, or at the start of a text, an element may follow without a blank. -/
def OpensBehind (last : Option Element) : Prop := ∀ e, last = some e → e.isOpening = true

namespace Grammar

/-- **The lexeme of an element.** An operator is the one that the registry holds under the lexeme in
    its set. -/
def Spells (g : Grammar) (lexeme : List Char) : Element → Prop
  | .bracket b => lexeme = b.text.toList
  | .comparison operator => g.registry.comparison? (String.ofList lexeme) = some operator
  | .connective operator => g.registry.connective? (String.ofList lexeme) = some operator
  | .negation operator => g.registry.negation? (String.ofList lexeme) = some operator
  | .operand o => Operand.ofLexeme g.isName lexeme = .ok o

/-- **A text spelled by elements**: the element before it, the text, its elements. -/
inductive SpelledBehind (g : Grammar) : Option Element → List Char → Condition → Prop
  | gap {last : Option Element} {gap : List Char} (hgap : AllBlank gap) :
      SpelledBehind g last gap []
  | element {last : Option Element} {gap lexeme rest : List Char} {e : Element} {es : Condition}
      (hgap : AllBlank gap)
      (htouch : gap = [] → OpensBehind last ∨ e = .bracket .closing)
      (hlexeme : g.Spells lexeme e) (hrest : SpelledBehind g (some e) rest es) :
      SpelledBehind g last (gap ++ (lexeme ++ rest)) (e :: es)

/-- The text spelled by the elements wherever an element may begin. -/
def SpelledOpen (g : Grammar) (cs : List Char) (es : Condition) : Prop :=
  ∀ last gap, AllBlank gap → (gap = [] → OpensBehind last) → g.SpelledBehind last (gap ++ cs) es

variable {g : Grammar}

theorem allBlank_nil : AllBlank [] := nofun

/-- More blanks before a text change nothing. -/
theorem SpelledBehind.blanks {last : Option Element} {gap cs : List Char} {es : Condition}
    (hgap : AllBlank gap) (h : g.SpelledBehind last cs es) :
    g.SpelledBehind last (gap ++ cs) es := by
  have hall : ∀ {gap' : List Char}, AllBlank gap' → AllBlank (gap ++ gap') := fun hgap' c hc =>
    (List.mem_append.mp hc).elim (hgap c) (hgap' c)
  cases h with
  | gap hgap' => exact .gap (hall hgap')
  | element hgap' htouch hlexeme hrest =>
    rw [← List.append_assoc]
    refine .element (hall hgap') (fun hnil => ?_) hlexeme hrest
    exact htouch (List.append_eq_nil_iff.mp hnil).2

theorem spelledOpen_of_forall {cs : List Char} {es : Condition}
    (h : ∀ last, g.SpelledBehind last cs es) : g.SpelledOpen cs es :=
  fun last _ hgap _ => (h last).blanks hgap

theorem SpelledOpen.behind {cs : List Char} {es : Condition} (h : g.SpelledOpen cs es)
    {last : Option Element} (hl : OpensBehind last) : g.SpelledBehind last cs es :=
  h last [] allBlank_nil fun _ => hl

theorem spelledOpen_cons {lexeme rest : List Char} {e : Element} {es : Condition}
    (hlexeme : g.Spells lexeme e) (hrest : g.SpelledBehind (some e) rest es) :
    g.SpelledOpen (lexeme ++ rest) (e :: es) :=
  fun _ _ hgap hl => .element hgap (fun hnil => .inl (hl hnil)) hlexeme hrest

/-- Behind an element that opens the next one may begin at once. -/
theorem SpelledOpen.cons {lexeme rest : List Char} {e : Element} {es : Condition}
    (hlexeme : g.Spells lexeme e) (he : e.isOpening = true) (hrest : g.SpelledOpen rest es) :
    g.SpelledOpen (lexeme ++ rest) (e :: es) :=
  spelledOpen_cons hlexeme (hrest.behind fun _ hd => Option.some.inj hd ▸ he)

/-! ## 2. The parts of a piece -/

/-- A negation is held under its name: no other one has it. -/
theorem negation?_of_mem {r : Registry} {operator : Negation} (h : operator ∈ r.negations) :
    r.negation? (String.ofList operator.name.chars) = some operator := by
  have hname : String.ofList operator.name.chars = OperatorSet.nameOf operator :=
    String.ofList_toList
  rw [hname, Registry.negation?]
  cases hf : OperatorSet.find? (OperatorSet.nameOf operator) r.negations with
  | none => exact absurd (beq_self_eq_true _) (List.find?_eq_none.mp hf operator h)
  | some other =>
    obtain ⟨-, htext⟩ := OperatorSet.mem_of_find? hf
    obtain ⟨name⟩ := other
    exact congrArg (some ∘ Negation.mk) (OperatorName.eq_of_text htext)

theorem SpelledOpen.opening {rest : List Char} {es : Condition} (h : g.SpelledOpen rest es) :
    g.SpelledOpen ('(' :: rest) (.bracket .opening :: es) :=
  have hbracket : g.Spells ['('] (.bracket .opening) := rfl
  .cons hbracket rfl h

theorem SpelledOpen.negation {operator : Negation} (h : operator ∈ g.symbolNegations)
    {rest : List Char} {es : Condition} (hrest : g.SpelledOpen rest es) :
    g.SpelledOpen (operator.name.chars ++ rest) (.negation operator :: es) := by
  obtain ⟨hmem, hsymbol⟩ := mem_symbolNegations.mp h
  rw [OperatorName.isSymbol_eq_not_isKeyword] at hsymbol
  exact .cons (negation?_of_mem hmem) hsymbol hrest

/-- Behind the first character of a name, as many are passed over as are left of it. -/
theorem drop_pred_of_append {name rest cs : List Char} {c : Char} (hn : name ≠ [])
    (h : name ++ rest = c :: cs) : cs.drop (name.length - 1) = rest := by
  obtain ⟨d, ds, rfl⟩ := List.exists_cons_of_ne_nil hn
  obtain ⟨-, rfl⟩ := List.cons.inj h
  exact List.drop_left' rfl

/-- **A lead** is spelled by its elements, before whatever follows it. -/
theorem spelledOpen_lead {skip : Nat} {cs tail : List Char} {es more : Condition}
    (h : leadElements? g.symbolNegations skip cs = some es) (hmore : g.SpelledOpen tail more) :
    g.SpelledOpen (cs.drop skip ++ tail) (es ++ more) := by
  induction cs generalizing skip es with
  | nil =>
    cases h
    rwa [List.drop_nil]
  | cons c cs ih =>
    cases skip with
    | succ skip => exact ih h
    | zero =>
      simp only [leadElements?] at h
      split at h
      · rename_i hc
        obtain ⟨es', hes, rfl⟩ := Option.map_eq_some_iff.mp h
        rw [beq_iff_eq.mp hc]
        exact (ih hes).opening
      · split at h
        · cases h
        · rename_i operator hfind
          obtain ⟨es', hes, rfl⟩ := Option.map_eq_some_iff.mp h
          have hprefix : operator.name.chars.isPrefixOf (c :: cs) = true := by
            simpa only using List.find?_some hfind
          obtain ⟨rest, hrest⟩ := List.isPrefixOf_iff_prefix.mp hprefix
          have hlead := ih hes
          rw [drop_pred_of_append operator.name.chars_ne_nil hrest] at hlead
          rw [List.drop_zero, ← hrest, List.append_assoc]
          exact .negation (List.mem_of_find?_eq_some hfind) hlead

/-- Closing brackets are spelled right behind anything. -/
theorem spelledBehind_closings (n : Nat) {rest : List Char} {more : Condition}
    (h : ∀ last, g.SpelledBehind last rest more) (last : Option Element) :
    g.SpelledBehind last (List.replicate n ')' ++ rest)
      (List.replicate n (.bracket .closing) ++ more) := by
  induction n generalizing last with
  | zero => exact h last
  | succ n ih =>
    have hbracket : g.Spells [')'] (.bracket .closing) := rfl
    exact .element allBlank_nil (fun _ => .inr rfl) hbracket (ih _)

/-- **A piece** is spelled by its lead, its operand if it has one, and its closing brackets. -/
theorem spelledOpen_piece {piece : Piece} {es more : Condition} (h : g.pieceElements piece = .ok es)
    (hmore : ∀ last, g.SpelledBehind last piece.tail.rest more) :
    g.SpelledOpen (piece.lead ++ piece.tail.chars) (es ++ more) := by
  have hclosings := spelledBehind_closings piece.tail.closing hmore
  simp only [pieceElements] at h
  cases hl : leadElements? g.symbolNegations 0 piece.lead with
  | none =>
    rw [hl] at h
    cases h
  | some lead =>
    rw [hl] at h
    cases hx : piece.tail.lexeme with
    | none =>
      rw [hx] at h
      cases h
      rw [List.append_nil, List.append_assoc, Tail.chars, hx]
      exact spelledOpen_lead hl (spelledOpen_of_forall hclosings)
    | some lexeme =>
      rw [hx] at h
      obtain ⟨_, ⟨⟩, h⟩ := bind_eq_ok_iff.mp h
      obtain ⟨_, ho, ⟨⟩⟩ := bind_eq_ok_iff.mp h
      obtain ⟨o, hlexeme, rfl⟩ := map_eq_ok_iff.mp ho
      rw [List.append_assoc, List.append_assoc, Tail.chars, hx]
      exact spelledOpen_lead hl (spelledOpen_cons hlexeme (hclosings _))

/-! ## 3. Whole texts -/

theorem spells_of_readOperator {chunk : List Char} {e : Element}
    (h : g.readOperator chunk = .ok e) : g.Spells chunk e := by
  simp only [readOperator] at h
  cases ho : g.operator? chunk with
  | none =>
    rw [ho] at h
    obtain ⟨o, hlexeme, rfl⟩ := map_eq_ok_iff.mp h
    exact hlexeme
  | some operator =>
    rw [ho] at h
    cases h
    simp only [operator?, Option.orElse_eq_orElse, Option.orElse_eq_or, Option.or_eq_some_iff,
      Option.map_eq_some_iff] at ho
    obtain ⟨_, hset, rfl⟩ | ⟨-, ⟨_, hset, rfl⟩ | ⟨-, _, hset, rfl⟩⟩ := ho
    · exact hset
    · exact hset
    · exact hset

/-- **The front of a text** is spelled by its elements. -/
theorem spelledOpen_front {cs rest : List Char} {es more : Condition}
    (h : g.readFront cs = .ok (es, rest)) (hmore : ∀ last, g.SpelledBehind last rest more) :
    g.SpelledOpen cs (es ++ more) := by
  unfold readFront at h
  split at h
  · obtain ⟨e, he, hfront⟩ := map_eq_ok_iff.mp h
    cases hfront
    have hcs := spelledOpen_cons (spells_of_readOperator he) (hmore _)
    rwa [chunk_append_afterChunk] at hcs
  · cases hp : Piece.read? g.leadParts pieceTail cs with
    | none =>
      rw [hp] at h
      cases h
    | some piece =>
      rw [hp] at h
      obtain ⟨elements, he, hfront⟩ := map_eq_ok_iff.mp h
      cases hfront
      rw [← (chars_of_piece hp).1]
      exact spelledOpen_piece he hmore

/-- **What is read from a place on spells the text there**: behind a front there is a gap, so that
    what follows may come behind any element. -/
theorem spelled_of_readFrom {cs : List Char} {es : Condition} (h : g.readFrom 0 cs = .ok es)
    {last : Option Element} (hl : AtGap cs ∨ OpensBehind last) : g.SpelledBehind last cs es := by
  refine readFrom_induction (motive := fun cs es => ∀ last, AtGap cs ∨ OpensBehind last →
    g.SpelledBehind last cs es) (fun hgap _ _ => .gap hgap) ?_ h last hl
  intro gap c ds front rest more hgap hc hf hrest _ ih last hl
  refine spelledOpen_front hf (fun last => ih last (.inl hrest)) last _ hgap fun hnil => ?_
  refine hl.resolve_left fun hat => ?_
  rw [hnil, List.nil_append, atGap_cons, hc] at hat
  cases hat

/-! ## 4. Names -/

/-- Only a lexeme that is a name stands for a variable, and is its name. -/
theorem name_of_ofLexeme {isName : List Char → Bool} {lexeme : List Char} {name : String}
    (h : Operand.ofLexeme isName lexeme = .ok (.var name)) :
    lexeme = name.toList ∧ isName lexeme = true := by
  have hread := Operand.classified isName lexeme
  rw [h] at hread
  cases hread with
  | name _ _ hname => exact ⟨String.toList_ofList.symm, hname⟩

/-- Every element has a lexeme. -/
theorem SpelledBehind.exists_lexeme {last : Option Element} {cs : List Char} {es : Condition}
    (h : g.SpelledBehind last cs es) {e : Element} (hm : e ∈ es) :
    ∃ lexeme, g.Spells lexeme e := by
  induction h with
  | gap => cases hm
  | element _ _ hlexeme _ ih =>
    rcases List.mem_cons.mp hm with rfl | hm
    · exact ⟨_, hlexeme⟩
    · exact ih hm

theorem SpelledBehind.isName {last : Option Element} {cs : List Char} {es : Condition}
    (h : g.SpelledBehind last cs es) {name : String} (hm : .operand (.var name) ∈ es) :
    g.isName name.toList = true := by
  obtain ⟨lexeme, hlexeme⟩ := h.exists_lexeme hm
  obtain ⟨rfl, hname⟩ := name_of_ofLexeme hlexeme
  exact hname

end Grammar

end Verdict
