import Verdict.Proofs.Captures
import Verdict.Proofs.Forms

/-!
# Scanning

Where names have the usual form the front of a text is read in two ways: character by character, and by
the expression that is put together from the names of the registry. Of all the ways in which that
expression matches, the preferred one is the front that is read character by character, with the same
parts. It is so for every registry, whatever its names have in common, and for every text.

* `Registry.findSome?_piece` -- a piece, as it is captured.
* `Registry.denotes_operators` -- the operators that are captured are the chunks that are read as one.
* `Registry.captures?_front_eq` -- **what the expression captures at the front of a text.**
* `Grammar.read_scanner` -- **a text is scanned as it is read**, and with what it is scanned there is
  always, as long as the library takes it (`Grammar.exists_scanner`).
-/

namespace Verdict

open Text
open Regex (Match)
open scoped Computability

/-! ## 1. The end of a piece -/

/-- What is captured of a piece behind its lead, with the rest behind the blank. -/
def Tail.captured (tail : Tail) : Match :=
  ⟨tail.rest.tail, ("close", List.replicate tail.closing ')') :: tail.lexeme.toList.map ("body", ·)⟩

/-- A match up to a gap, with what is behind the blank. -/
def pastGap (m : Match) : Option Match :=
  if m.rest.head?.all isBlank then some ⟨m.rest.tail, m.groups⟩ else none

namespace Expr

variable {α : Type} {text cs : List Char}

/-- What is taken from a text, with a rest left. -/
theorem take_of_append {w rest : List Char} (h : w ++ rest = cs) :
    cs.take (cs.length - rest.length) = w := by
  rw [← h, List.length_append, Nat.add_sub_cancel, List.take_left]

/-- Closing brackets are matched as far as they go, if there is a gap behind them. -/
theorem findSome?_close (text : List Char) (m : Match) :
    (close.ways text m.rest).findSome? (fun later => pastGap (later.behind m))
      = (closing? m.rest).map fun cut =>
        ⟨cut.2.tail, ("close", List.replicate cut.1 ')') :: m.groups⟩ := by
  obtain ⟨ds, groups⟩ := m
  have hcs : ds.takeWhile (· == ')') ++ ds.dropWhile (· == ')') = ds :=
    List.takeWhile_append_dropWhile
  have hbrackets : ds.takeWhile (· == ')') = List.replicate (ds.takeWhile (· == ')')).length ')' :=
    List.eq_replicate_iff.mpr ⟨rfl, fun c hc =>
      beq_iff_eq.mp (List.all_eq_true.mp List.all_takeWhile c hc)⟩
  let k (rest : List Char) : Option Match :=
    pastGap ⟨rest, ("close", ds.take (ds.length - rest.length)) :: groups⟩
  have hends : ∀ rest, k rest ≠ none → ((∃ w ∈ (CharClass.char ')').language∗, w ++ rest = ds) ↔
      some (ds.dropWhile (· == ')')) = some rest) := by
    intro rest hrest
    constructor
    · rintro ⟨w, hw, hds⟩
      have hnext : ∀ c, rest.head? = some c → (c == ')') = false := by
        intro c hc
        refine Bool.eq_false_iff.mpr fun he => hrest ?_
        obtain ⟨more, rfl⟩ := List.head?_eq_some_iff.mp hc
        rw [beq_iff_eq.mp he]
        rfl
      rw [← hds, (cut_append (p := (· == ')')) (CharClass.mem_kstar.mp hw) hnext).2]
    · intro he
      refine ⟨_, CharClass.mem_kstar.mpr fun c hc => ?_, Option.some.inj he ▸ hcs⟩
      exact List.all_eq_true.mp List.all_takeWhile c hc
  have hclose : ((many false (char ')')).ways text ds).findSome? (fun m => k m.rest)
      = k (ds.dropWhile (· == ')')) := (denotes_one (.char ')')).many.findSome?_ways hends
  rw [close, findSome?_capture, findSome?_of_names rfl]
  refine hclose.trans ?_
  show pastGap ⟨_, ("close", ds.take _) :: groups⟩ = _
  rw [take_of_append hcs, pastGap, closing?]
  split
  · rw [Option.map_some, ← hbrackets]
  · rfl

/-- A form between brackets of a group, and what is captured of it. -/
theorem findSome?_operand {e : Expr} (hnames : e.names = []) (text cs : List Char) :
    ((capture "body" e).ways text cs).findSome? (fun m =>
      (close.ways text m.rest).findSome? fun later => pastGap (later.behind m))
      = ((e.ways text cs).findSome? fun m => tailBehind cs m.rest).map Tail.captured := by
  rw [findSome?_capture, findSome?_of_names hnames, List.map_findSome?]
  refine findSome?_congr fun m _ => ?_
  refine (findSome?_close text ⟨m.rest, [("body", cs.take (cs.length - m.rest.length))]⟩).trans ?_
  rw [Function.comp_apply, tailBehind, tailWith, Option.map_map]
  rfl

theorem or_ite (a b : Bool) (answer : Option α) :
    (if a then answer else none).or (if b then answer else none)
      = if a || b then answer else none := by
  cases a with
  | false => exact Option.none_or
  | true =>
    cases b with
    | false => exact Option.or_none
    | true => exact Option.or_self

theorem findSome?_choices {k : Match → Option α} (first second : Expr) (rest : List Expr) :
    ((choices first (second :: rest)).ways text cs).findSome? k
      = ((first.ways text cs).findSome? k).or (((choices second rest).ways text cs).findSome? k) :=
  findSome?_choice text cs first (choices second rest) k

/-- **An operand and closing brackets**, or closing brackets alone. -/
theorem findSome?_body (text cs : List Char) : ((body none).ways text cs).findSome? (fun m =>
    (close.ways text m.rest).findSome? fun later => pastGap (later.behind m))
      = (pieceTail cs).map Tail.captured := by
  have hnumber : (number.ways text cs).findSome? (fun m => tailBehind cs m.rest)
      = wordTail Number.isLiteral cs :=
    findSome?_word denotes_number fun _ hw => isWordPart_of_isLiteral hw
  have htruth : (truth.ways text cs).findSome? (fun m => tailBehind cs m.rest)
      = wordTail (fun w => (readTruth? w).isSome) cs :=
    findSome?_word denotes_truth fun w hw => by
      obtain ⟨b, hb⟩ := Option.isSome_iff_exists.mp hw
      rw [eq_of_readTruth? hb]
      exact isWordPart_of_mem_truthWord b
  have hname : (usualName.ways text cs).findSome? (fun m => tailBehind cs m.rest)
      = wordTail isPlainName cs :=
    findSome?_word denotes_usualName fun _ hw => isWordPart_of_isPlainName hw
  have hforms : ((choices (group literal) [group number, group truth, group usualName]).ways text
      cs).findSome? (fun m => tailBehind cs m.rest)
      = (quotedTail cs).or ((wordTail isLiteralWord cs).or (wordTail isPlainName cs)) := by
    rw [findSome?_choices, findSome?_choices, findSome?_choices]
    refine congrArg₂ Option.or (findSome?_literal text cs) ?_
    rw [← Option.or_assoc]
    refine congrArg₂ Option.or ?_ hname
    exact (congrArg₂ Option.or hnumber htruth).trans (or_ite _ _ _)
  have hbare : (close.ways text cs).findSome? (fun later => pastGap (later.behind ⟨cs, []⟩))
      = (tailWith none cs).map Tail.captured := by
    rw [findSome?_close text ⟨cs, []⟩, tailWith, Option.map_map]
    rfl
  rw [body, findSome?_option, findSome?_operand rfl]
  show Option.or (Option.map _ (((choices (group literal) [group number, group truth,
    group usualName]).ways text cs).findSome? _)) _ = _
  rw [hforms, hbare, ← Option.map_or, Option.or_assoc, Option.or_assoc]
  simp only [pieceTail, Option.orElse_eq_orElse, Option.orElse_eq_or]

end Expr

/-! ## 2. Pieces -/

/-- What is captured of a piece, with the rest behind the blank. -/
def Piece.captured (piece : Piece) : Match :=
  ⟨piece.tail.rest.tail, piece.tail.captured.groups ++ [("lead", piece.lead)]⟩

theorem pastGap_behind (later earlier : Match) :
    pastGap (later.behind earlier) = (pastGap later).map (·.behind earlier) := by
  simp only [pastGap]
  show (if later.rest.head?.all isBlank then _ else none) = _
  split <;> rfl

namespace Registry

open Verdict.Expr

variable (r : Registry) (text cs : List Char)

/-- **A piece is captured as it is read.** The first try of a lead that leaves a whole piece is what
    the preferred way to match takes. -/
theorem findSome?_piece : ((r.piece none).ways text cs).findSome? pastGap
    = (Piece.read? r.grammar.leadParts pieceTail cs).map Piece.captured := by
  have hne : ∀ part ∈ r.grammar.leadParts, part ≠ [] := by
    intro part hp
    rcases List.mem_cons.mp hp with rfl | hp
    · exact List.cons_ne_nil _ _
    · obtain ⟨operator, -, rfl⟩ := List.mem_map.mp hp
      exact operator.name.chars_ne_nil
  have hbehind : ∀ m : Match,
      ((seq (body none) close).ways text m.rest).findSome? (fun later => pastGap (later.behind m))
        = (pieceTail m.rest).map fun tail => tail.captured.behind m := by
    intro m
    have hmap : ((seq (body none) close).ways text m.rest).findSome? (fun later =>
        pastGap (later.behind m)) = (((seq (body none) close).ways text m.rest).findSome?
          pastGap).map fun later => later.behind m := by
      rw [List.map_findSome?]
      exact findSome?_congr fun later _ => pastGap_behind later m
    rw [hmap, findSome?_seq, findSome?_body, Option.map_map]
    rfl
  let finish (ds : List Char) : Option (List Char × Tail) := (pieceTail ds).map fun tail => (ds, tail)
  have hlead : ((many false (group (choices (Expr.word ['('])
      (r.grammar.symbolNegations.map (Expr.word ·.name.chars))))).ways text cs).findSome?
        (fun m => finish m.rest) = (firstTry r.grammar.leadParts finish cs).head?.join := by
    have hwords : r.grammar.symbolNegations.map (Expr.word ·.name.chars)
        = (r.grammar.symbolNegations.map (·.name.chars)).map Expr.word := List.map_map.symm
    rw [hwords]
    exact findSome?_many_parts hne text cs finish
  rw [piece, findSome?_seq, lead, findSome?_capture, findSome?_of_names (List.cons.inj r.names_lead).2]
  simp only [hbehind]
  rw [Piece.read?, ← hlead, Option.map_map, List.map_findSome?]
  refine findSome?_congr fun m _ => ?_
  rw [Function.comp_apply, Option.map_map]
  rfl

/-! ## 3. Operators -/

section Operators

variable {r}

/-- A chunk is read as an operator if it is a run of symbols, or one of the keywords. -/
theorem isOperatorChunk_iff {w : List Char} : r.grammar.isOperatorChunk w = true ↔
    (w ≠ [] ∧ ∀ c ∈ w, r.grammar.isSymbolic c = true) ∨ ∃ name ∈ r.keywords, name.chars = w := by
  rw [Grammar.isOperatorChunk, Bool.or_eq_true, Bool.and_eq_true, Bool.not_eq_true',
    List.isEmpty_eq_false_iff, List.all_eq_true, List.any_eq_true]
  simp only [mem_keywords, Bool.and_eq_true, beq_iff_eq, and_assoc]
  rfl

theorem holds_symbols (c : Char) :
    (CharClass.set (r.symbols.map .char)).holds c = true ↔ r.grammar.isSymbolic c = true := by
  show (r.symbols.map Member.char).any (·.holds c) = true ↔ _
  rw [← mem_symbols, List.any_map, List.any_eq_true]
  exact ⟨fun ⟨d, hd, he⟩ => beq_iff_eq.mp he ▸ hd, fun hc => ⟨c, hc, beq_self_eq_true c⟩⟩

/-- **The operators that stand by themselves** are the chunks that are read as one. -/
theorem denotes_operators {first : Expr} {rest : List Expr} (h : r.operators = first :: rest) :
    Denotes (choices first rest) (texts (r.grammar.isOperatorChunk · = true)) := by
  intro text cs m
  have hsymbols : m ∈ (plus (one (.set (r.symbols.map .char)))).ways text cs ↔ m.groups = [] ∧
      ∃ w, (w ≠ [] ∧ ∀ c ∈ w, r.grammar.isSymbolic c = true) ∧ w ++ m.rest = cs := by
    rw [(denotes_one _).plus text]
    simp only [CharClass.mem_mul_kstar, holds_symbols]
  have hkeyword : ∀ name : OperatorName, m ∈ (Expr.word name.chars).ways text cs ↔
      m.groups = [] ∧ name.chars ++ m.rest = cs := fun name =>
    (denotes_word name.chars text cs m).trans (and_congr_right fun _ => exists_eq_left)
  rw [mem_ways_choices, ← h]
  simp only [mem_texts, isOperatorChunk_iff]
  constructor
  · rintro ⟨e, he, hm⟩
    rcases mem_operators.mp he with ⟨-, rfl⟩ | ⟨name, hname, rfl⟩
    · obtain ⟨hgroups, w, hw, hcs⟩ := hsymbols.mp hm
      exact ⟨hgroups, w, .inl hw, hcs⟩
    · obtain ⟨hgroups, hcs⟩ := (hkeyword name).mp hm
      exact ⟨hgroups, name.chars, .inr ⟨name, hname, rfl⟩, hcs⟩
  · rintro ⟨hgroups, w, hw | ⟨name, hname, rfl⟩, hcs⟩
    · obtain ⟨c, ds, rfl⟩ := List.exists_cons_of_ne_nil hw.1
      have hne := List.ne_nil_of_mem (mem_symbols.mpr (hw.2 c List.mem_cons_self))
      exact ⟨_, mem_operators.mpr (.inl ⟨hne, rfl⟩), hsymbols.mpr ⟨hgroups, _, hw, hcs⟩⟩
    · exact ⟨_, mem_operators.mpr (.inr ⟨name, hname, rfl⟩), (hkeyword name).mpr ⟨hgroups, hcs⟩⟩

theorem not_blank_of_isOperatorChunk {w : List Char} (h : r.grammar.isOperatorChunk w = true) :
    ∀ c ∈ w, isBlank c = false := by
  rcases isOperatorChunk_iff.mp h with ⟨-, hw⟩ | ⟨name, -, rfl⟩
  · exact fun c hc =>
      (isWordPart_iff.mp (isWordPart_of_isSymbolChar (isSymbolChar_of_isSymbolic (hw c hc)))).1
  · exact fun c hc => (isWordPart_iff.mp (OperatorName.isWordPart_of_mem hc)).1

end Operators

/-- An operator is captured if the chunk at the front is one. -/
theorem findSome?_operators {first : Expr} {rest : List Expr} (h : r.operators = first :: rest) :
    ((capture "operator" (choices first rest)).ways text cs).findSome? pastGap
      = if r.grammar.isOperatorChunk (chunk cs) then
          some ⟨(afterChunk cs).tail, [("operator", chunk cs)]⟩ else none := by
  let k (rest : List Char) : Option Match :=
    pastGap ⟨rest, [("operator", cs.take (cs.length - rest.length))]⟩
  have hends : ∀ rest, k rest ≠ none →
      ((∃ w ∈ texts (r.grammar.isOperatorChunk · = true), w ++ rest = cs) ↔
        (if r.grammar.isOperatorChunk (chunk cs) then some (afterChunk cs) else none)
          = some rest) := by
    intro rest hrest
    have hgap : AtGap rest := by
      refine (all_head?_isBlank_iff rest).mp (Classical.byContradiction fun hno => hrest ?_)
      exact if_neg hno
    constructor
    · rintro ⟨w, hw, rfl⟩
      obtain ⟨hchunk, hafter⟩ := chunk_append (not_blank_of_isOperatorChunk hw) hgap
      rw [hchunk, hafter, if_pos (mem_texts.mp hw)]
    · intro hfound
      split at hfound
      · rename_i hw
        cases hfound
        exact ⟨chunk cs, hw, chunk_append_afterChunk cs⟩
      · cases hfound
  have hk : k (afterChunk cs) = some ⟨(afterChunk cs).tail, [("operator", chunk cs)]⟩ := by
    show pastGap ⟨_, [("operator", cs.take _)]⟩ = _
    rw [take_of_append (chunk_append_afterChunk cs)]
    exact if_pos ((all_head?_isBlank_iff _).mpr (atGap_afterChunk cs))
  rw [findSome?_capture, findSome?_of_names (names_operators h)]
  refine ((denotes_operators h).findSome?_ways hends).trans ?_
  split
  · exact hk
  · rfl

/-! ## 4. Fronts -/

/-- What is captured at the front of a text. -/
def frontCaptured (cs : List Char) : Option Match :=
  if r.grammar.isOperatorChunk (chunk cs) then
    some ⟨(afterChunk cs).tail, [("operator", chunk cs)]⟩
  else (Piece.read? r.grammar.leadParts pieceTail cs).map Piece.captured

theorem findSome?_operatorOrPiece :
    ((r.operatorOrPiece none).ways text cs).findSome? pastGap = r.frontCaptured cs := by
  unfold operatorOrPiece frontCaptured
  split
  · rename_i hnone
    have hop : r.grammar.isOperatorChunk (chunk cs) = false := by
      have hnames : ∀ name, name ∉ r.names := fun name hm =>
        absurd (operators_eq_nil_iff.mp hnone ▸ hm) List.not_mem_nil
      refine Bool.eq_false_iff.mpr fun h => ?_
      rcases isOperatorChunk_iff.mp h with ⟨hne, hall⟩ | ⟨name, hname, -⟩
      · obtain ⟨c, ds, hcs⟩ := List.exists_cons_of_ne_nil hne
        obtain ⟨name, hm, -⟩ := List.any_eq_true.mp (hall c (hcs ▸ List.mem_cons_self))
        exact hnames name hm
      · exact hnames name (mem_keywords.mp hname).1
    rw [hop]
    exact r.findSome?_piece text cs
  · rename_i first rest h
    rw [findSome?_choice, r.findSome?_operators text cs h, r.findSome?_piece text cs]
    split
    · rfl
    · exact Option.none_or

/-- **What the expression captures at the front of a text.** -/
theorem captures?_front_eq : (r.front none).regex.captures? cs = r.frontCaptured cs := by
  have hstart : start.ways cs cs = [⟨cs, []⟩] := if_pos rfl
  have hgap : ∀ m : Match, (gap.ways cs m.rest).findSome?
      (fun later => some ((later.behind m).behind ⟨cs, []⟩)) = pastGap m := by
    intro m
    rw [ways_gap, pastGap]
    split
    · rw [findSome?_singleton]
      exact congrArg (fun groups => some (Match.mk m.rest.tail groups)) (List.append_nil m.groups)
    · rfl
  rw [captures?_front, ← findSome?_operatorOrPiece r cs cs, ← findSome?_some, front,
    findSome?_seq, hstart, findSome?_singleton, findSome?_seq]
  exact findSome?_congr fun m _ => hgap m

end Registry

/-! ## 5. Reading -/

namespace Grammar

variable {r : Registry} {front : Regex}

/-- The elements of a piece are those of what is captured of it. -/
theorem matchElements_captured (g : Grammar) (piece : Piece) :
    g.matchElements piece.captured = g.pieceElements piece := by
  obtain ⟨lead, lexeme, closing, rest⟩ := piece
  have hclosing : (List.replicate closing ')').length = closing := List.length_replicate
  cases lexeme with
  | none =>
    show g.pieceElements ⟨lead, ⟨none, (List.replicate closing ')').length, rest.tail⟩⟩ = _
    rw [hclosing]
    rfl
  | some lexeme =>
    show g.pieceElements ⟨lead, ⟨some lexeme, (List.replicate closing ')').length, rest.tail⟩⟩ = _
    rw [hclosing]
    rfl

/-- **A front is scanned as it is read**, and the blank behind it is gone. -/
theorem scanFront_eq (hfront : ∀ cs, front.captures? cs = (r.front none).regex.captures? cs)
    (cs : List Char) : (Grammar.mk r (some ⟨front, none⟩)).scanFront front cs
      = (r.grammar.readFront cs).map fun (es, rest) => (es, rest.tail) := by
  rw [scanFront, hfront, Registry.captures?_front_eq, Registry.frontCaptured, readFront]
  by_cases hop : r.grammar.isOperatorChunk (chunk cs) = true
  · rw [if_pos hop, if_pos hop]
    show ((r.grammar.readOperator (chunk cs)).map _).map _ = _
    cases r.grammar.readOperator (chunk cs) <;> rfl
  · rw [if_neg hop, if_neg hop]
    cases Piece.read? r.grammar.leadParts pieceTail cs with
    | none => rfl
    | some piece =>
      show ((Grammar.mk r (some ⟨front, none⟩)).matchElements piece.captured).map _ = _
      rw [matchElements_captured]
      show (r.grammar.pieceElements piece).map _ = ((r.grammar.pieceElements piece).map _).map _
      cases r.grammar.pieceElements piece <;> rfl

/-- A blank at a gap is passed over. -/
theorem readBy_tail (read : List Char → Except Fault (Condition × List Char)) {rest : List Char}
    (h : AtGap rest) : readBy read 0 rest.tail = readBy read 0 rest := by
  cases rest with
  | nil => rfl
  | cons c cs => simp only [readBy, atGap_cons.mp h, ↓reduceIte, List.tail_cons]

/-- **A text is scanned as it is read**, if the expression matches like the one for a front. -/
theorem readBy_scanFront (hfront : ∀ cs, front.captures? cs = (r.front none).regex.captures? cs)
    (cs : List Char) : readBy ((Grammar.mk r (some ⟨front, none⟩)).scanFront front) 0 cs
      = r.grammar.readFrom 0 cs := by
  have honward := Registry.onward_scanFront (Grammar.mk r (some ⟨front, none⟩)) hfront
  induction cs using r.grammar.front_induction with
  | @blank gap hgap =>
    rw [← List.append_nil gap, readBy_blanks _ hgap, readFrom_blanks _ hgap]
    rfl
  | fault hgap hc hf =>
    rw [readBy_blanks _ hgap, readFrom_blanks _ hgap, honward.readBy_cons hc, readFrom_cons hc,
      scanFront_eq hfront, hf]
    rfl
  | @front gap c ds es rest hgap hc hf ih =>
    rw [readBy_blanks _ hgap, readFrom_blanks _ hgap, honward.readBy_cons hc, readFrom_cons hc,
      scanFront_eq hfront, hf]
    show (readBy _ 0 rest.tail).map (es ++ ·) = (r.grammar.readFrom 0 rest).map (es ++ ·)
    rw [readBy_tail _ (rest_of_readFront hf).2, ih]

section Library

variable [RegexLibrary]

theorem ofRegistry_none_eq_ok_iff {g : Grammar} : Grammar.ofRegistry r none = .ok g ↔
    ∃ front, RegexLibrary.compile? (r.front none).text = some front ∧
      g = ⟨r, some ⟨front, none⟩⟩ := by
  have hgrammar : Grammar.ofRegistry r none
      = (Scanner.ofRegistry r none).bind fun scanner => .ok ⟨r, some scanner⟩ := rfl
  rw [hgrammar, bind_eq_ok_iff]
  constructor
  · rintro ⟨⟨front, whole⟩, hscanner, he⟩
    cases he
    obtain ⟨hfront, ⟨-, rfl⟩ | ⟨_, _, hown, -⟩⟩ := scanner_eq_ok_iff.mp hscanner
    · exact ⟨front, hfront, rfl⟩
    · cases hown
  · rintro ⟨front, hfront, rfl⟩
    exact ⟨⟨front, none⟩, scanner_eq_ok_iff.mpr ⟨hfront, .inl ⟨rfl, rfl⟩⟩, rfl⟩

/-- **With names of the usual form the scanner reads like the registry's own grammar**, if the library
    reads the expression for a front as it is written. -/
theorem read_scanner (hreads : RegexLibrary.Reads (r.front none)) {g : Grammar}
    (h : Grammar.ofRegistry r none = .ok g) (text : String) : g.read text = r.grammar.read text := by
  obtain ⟨front, hcompile, rfl⟩ := ofRegistry_none_eq_ok_iff.mp h
  have hwell : (r.front none).WellFormed false := r.wellFormed_front fun _ he => by cases he
  have hfront := (hreads hwell front hcompile).2
  have helements : (Grammar.mk r (some ⟨front, none⟩)).elements text.toList
      = r.grammar.elements text.toList := readBy_scanFront hfront text.toList
  rw [read, helements]
  rfl

/-- There is a scanner, if the library takes the expression for a front. -/
theorem exists_scanner (haccepts : RegexLibrary.Accepts (r.front none)) :
    ∃ g, Grammar.ofRegistry r none = .ok g := by
  have hwell : (r.front none).WellFormed false := r.wellFormed_front fun _ he => by cases he
  obtain ⟨front, hcompile⟩ := haccepts hwell r.nodup_names_front
  exact ⟨_, ofRegistry_none_eq_ok_iff.mpr ⟨front, hcompile, rfl⟩⟩

/-- **So a text is scanned as it is read**, error for error. -/
theorem read_ofRegistry (haccepts : RegexLibrary.Accepts (r.front none))
    (hreads : RegexLibrary.Reads (r.front none)) (text : String) :
    (Grammar.ofRegistry r none).bind (·.read text) = r.grammar.read text := by
  obtain ⟨g, hg⟩ := exists_scanner haccepts
  rw [hg]
  exact read_scanner hreads hg text

end Library

end Grammar

end Verdict
