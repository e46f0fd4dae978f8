import Verdict.Proofs.Lexing
import Verdict.Proofs.Rereading

/-!
# Texts side by side

A text is read from the front, each piece against all of the text behind it, and a literal between
quotes may hold blanks. Still, what is read does not change when something is put behind the text:
pieces end at gaps, and whatever comes behind a gap has been left alone. With one exception. A
literal that escapes its own last quote goes on to the next one, if there is one.

Behind a text may come closing brackets, and then anything at a gap (`following`). The brackets
become part of the last piece. Every part of reading is shown to be the same up to that: the closing
brackets, the literals, the words, the tries for a lead, the front of a text, and then the text.

* `closing?_following`, `literalTail_following`, `firstTry_append` -- the parts of a piece.
* `readFront_following` -- the front of a text is read as before.
* `readFrom_following` -- and so is the text, and then what comes behind it.
* `read_append` -- **texts with a gap between them are read side by side.**
-/

namespace Verdict

open Text

/-! ## 1. What follows a text -/

/-- What follows a text: closing brackets, and then something at a gap. -/
def following (n : Nat) (rest : List Char) : List Char := List.replicate n ')' ++ rest

/-- Closing brackets and the text behind them, when closing brackets and a gap follow the whole. The
    brackets are their own if they went up to the end. -/
def closedBy (n : Nat) (rest : List Char) (cut : Nat × List Char) : Nat × List Char :=
  if cut.2 = [] then (cut.1 + n, rest) else (cut.1, cut.2 ++ following n rest)

/-- The rest of a piece, when closing brackets and a gap follow the whole. -/
def Tail.closedBy (n : Nat) (rest : List Char) (tail : Tail) : Tail :=
  let cut := Verdict.closedBy n rest (tail.closing, tail.rest)
  ⟨tail.lexeme, cut.1, cut.2⟩

/-- Where a test fails behind a text, cutting the text is cutting the whole. -/
theorem cut_before {p : Char → Bool} {ds : List Char} (hds : ∀ c, ds.head? = some c → p c = false)
    (cs : List Char) :
    (cs ++ ds).takeWhile p = cs.takeWhile p ∧ (cs ++ ds).dropWhile p = cs.dropWhile p ++ ds := by
  induction cs with
  | nil => exact cut_append nofun hds
  | cons c cs ih =>
    rw [List.cons_append, List.takeWhile_cons, List.takeWhile_cons, List.dropWhile_cons,
      List.dropWhile_cons, ih.1, ih.2]
    cases p c with
    | true => exact ⟨rfl, rfl⟩
    | false => exact ⟨rfl, rfl⟩

section Following

variable {n : Nat} {rest : List Char}

theorem isWordPart_head?_following (hrest : AtGap rest) {c : Char}
    (h : (following n rest).head? = some c) : isWordPart c = false :=
  isWordPart_head?_closing hrest n c h

theorem closing?_closing (cs : List Char) :
    closing? (')' :: cs) = (closing? cs).map fun cut => (cut.1 + 1, cut.2) := by
  have hcut : (')' :: cs).takeWhile (· == ')') = ')' :: cs.takeWhile (· == ')') ∧
      (')' :: cs).dropWhile (· == ')') = cs.dropWhile (· == ')') := ⟨rfl, rfl⟩
  rw [closing?, closing?, hcut.1, hcut.2, List.length_cons]
  split <;> rfl

theorem closing?_of_blank {c : Char} (hc : isBlank c = true) (cs : List Char) :
    closing? (c :: cs) = some (0, c :: cs) :=
  closing?_replicate (atGap_cons.mpr hc) 0

/-- **Where a piece ends it ends before closing brackets, too**, and it ends nowhere else. -/
theorem closing?_following (hrest : AtGap rest) (cs : List Char) :
    closing? (cs ++ following n rest) = (closing? cs).map (closedBy n rest) := by
  induction cs with
  | nil =>
    have hnil : closing? [] = some (0, []) := rfl
    rw [List.nil_append, following, closing?_replicate hrest, hnil, Option.map_some, closedBy,
      if_pos rfl, Nat.zero_add]
  | cons c cs ih =>
    by_cases hp : c = ')'
    · rw [hp, List.cons_append, closing?_closing, closing?_closing, ih, Option.map_map,
        Option.map_map]
      refine congrArg (fun f => Option.map f (closing? cs)) (funext fun cut => ?_)
      simp only [Function.comp_apply, closedBy]
      split
      · rw [Nat.add_right_comm]
      · rfl
    · cases hb : isBlank c with
      | true =>
        rw [List.cons_append, closing?_of_blank hb, closing?_of_blank hb]
        rfl
      | false => rw [List.cons_append, closing?_cons_of_ne hp hb, closing?_cons_of_ne hp hb]; rfl

theorem tailWith_following (hrest : AtGap rest) (lexeme : Option (List Char)) (cs : List Char) :
    tailWith lexeme (cs ++ following n rest) = (tailWith lexeme cs).map (Tail.closedBy n rest) := by
  rw [tailWith, tailWith, closing?_following hrest, Option.map_map, Option.map_map]
  rfl

/-! ## 2. Literals -/

theorem cutAtQuote_append_of_some {q : Char} {escaped : Bool} {cs body behind : List Char}
    (h : cutAtQuote q escaped cs = some (body, behind)) (ds : List Char) :
    cutAtQuote q escaped (cs ++ ds) = some (body, behind ++ ds) := by
  induction cs generalizing escaped body with
  | nil => cases h
  | cons c cs ih =>
    rw [cutAtQuote] at h
    rw [List.cons_append, cutAtQuote]
    split
    · rename_i hc
      rw [if_pos hc] at h
      cases h
      rfl
    · rename_i hc
      rw [if_neg hc] at h
      obtain ⟨⟨body', behind'⟩, hcut, he⟩ := Option.map_eq_some_iff.mp h
      cases he
      rw [ih hcut]
      rfl

theorem hasUnescaped_of_not_mem {q : Char} {cs : List Char} (h : q ∉ cs) (escaped : Bool) :
    hasUnescaped q escaped cs = false := by
  induction cs generalizing escaped with
  | nil => rfl
  | cons c cs ih =>
    rw [hasUnescaped, beq_eq_false_iff_ne.mpr (List.ne_of_not_mem_cons h).symm, Bool.false_and,
      Bool.false_or, ih (List.not_mem_of_not_mem_cons h)]

theorem cutAtQuote_eq_none_iff {q : Char} {escaped : Bool} {cs : List Char} :
    cutAtQuote q escaped cs = none ↔ hasUnescaped q escaped cs = false := by
  rw [Lexing.hasUnescaped_eq_isSome]
  cases cutAtQuote q escaped cs with
  | none => exact ⟨fun _ => rfl, fun _ => rfl⟩
  | some cut => exact ⟨nofun, nofun⟩

/-- Where no quote ends a literal, none does so behind the text, if there is none. -/
theorem cutAtQuote_append_of_none {q : Char} {cs ds : List Char}
    (h : cutAtQuote q false cs = none) (hq : q ∉ ds) : cutAtQuote q false (cs ++ ds) = none := by
  rw [cutAtQuote_eq_none_iff] at h ⊢
  rw [hasUnescaped_append, h, hasUnescaped_of_not_mem hq, Bool.false_or]

theorem cutAtAnyQuote_following (hrest : AtGap rest) {q : Char} {cs body : List Char}
    {cut : Nat × List Char} (h : cutAtAnyQuote q cs = some (body, cut)) :
    cutAtAnyQuote q (cs ++ following n rest) = some (body, closedBy n rest cut) := by
  induction cs generalizing body with
  | nil => cases h
  | cons c cs ih =>
    have hhere : (if c == q then closing? (cs ++ following n rest) else none)
        = (if c == q then closing? cs else none).map (closedBy n rest) := by
      split
      · exact closing?_following hrest cs
      · rfl
    rw [cutAtAnyQuote] at h
    rw [List.cons_append, cutAtAnyQuote, hhere]
    cases hc : (if c == q then closing? cs else none) with
    | some found =>
      rw [hc] at h
      cases h
      rfl
    | none =>
      rw [hc] at h
      obtain ⟨⟨body', cut'⟩, hcut, he⟩ := Option.map_eq_some_iff.mp h
      cases he
      show (cutAtAnyQuote q (cs ++ following n rest)).map _ = _
      rw [ih hcut]
      rfl

/-- **A literal ends where it ended**, unless it lacks an unescaped quote that could come behind. -/
theorem literalTail_following (hrest : AtGap rest) {q : Char} (hq : isQuote q = true)
    {cs : List Char} {tail : Tail} (h : literalTail q cs = some tail)
    (hmore : cutAtQuote q false cs = none → q ∉ rest) :
    literalTail q (cs ++ following n rest) = some (tail.closedBy n rest) := by
  have hany : ∀ {found : Option Tail}, found = none →
      (found <|> (cutAtAnyQuote q cs).map fun cut =>
        (⟨some (q :: cut.1 ++ [q]), cut.2.1, cut.2.2⟩ : Tail)) = some tail →
      (cutAtAnyQuote q (cs ++ following n rest)).map (fun cut =>
        (⟨some (q :: cut.1 ++ [q]), cut.2.1, cut.2.2⟩ : Tail)) = some (tail.closedBy n rest) := by
    intro found hnone hfound
    subst hnone
    obtain ⟨⟨body, cut⟩, hcut, he⟩ := Option.map_eq_some_iff.mp hfound
    cases he
    rw [cutAtAnyQuote_following hrest hcut]
    rfl
  rw [literalTail] at h ⊢
  cases hcut : cutAtQuote q false cs with
  | none =>
    have hfollowing : q ∉ following n rest := by
      intro hm
      rcases List.mem_append.mp hm with hm | hm
      · rw [List.eq_of_mem_replicate hm] at hq
        exact absurd hq (by decide)
      · exact hmore hcut hm
    rw [hcut] at h
    rw [cutAtQuote_append_of_none hcut hfollowing]
    exact hany rfl h
  | some cut =>
    obtain ⟨body, behind⟩ := cut
    rw [hcut] at h
    rw [cutAtQuote_append_of_some hcut]
    simp only [Option.bind_some, tailWith_following hrest] at h ⊢
    cases ht : tailWith (some (q :: body ++ [q])) behind with
    | none =>
      rw [ht] at h
      exact hany rfl h
    | some found =>
      rw [ht] at h
      cases h
      rfl

/-- A literal that is read, and does not escape its last quote, ends at an unescaped quote. -/
theorem cutAtQuote_ne_none {q : Char} {cs body : List Char} {tail : Tail}
    (h : literalTail q cs = some tail) (hlexeme : tail.lexeme = some (q :: body ++ [q]))
    (hbare : hasUnescaped q false body = false) (hend : endsEscaped false body = false) :
    cutAtQuote q false cs ≠ none := by
  have hchars := (tailOf_literalTail h).1
  rw [Tail.chars, hlexeme, Option.getD_some, List.cons_append, List.cons_append,
    List.append_assoc, List.singleton_append] at hchars
  rw [← (List.cons.inj hchars).2, cutAtQuote_of_not_hasUnescaped hbare, hend, cutAtQuote,
    beq_self_eq_true]
  intro hnone
  cases hnone

/-! ## 3. Words and tries -/

theorem wordTail_following (hrest : AtGap rest) (form : List Char → Bool) (cs : List Char) :
    wordTail form (cs ++ following n rest) = (wordTail form cs).map (Tail.closedBy n rest) := by
  have hcut : word (cs ++ following n rest) = word cs ∧
      afterWord (cs ++ following n rest) = afterWord cs ++ following n rest :=
    cut_before (fun c hc => isWordPart_head?_following hrest hc) cs
  rw [wordTail, hcut.1, hcut.2, wordTail]
  split
  · exact tailWith_following hrest _ _
  · rfl

/-- Where no literal begins, a piece ends as it ended. -/
theorem pieceTail_following (hrest : AtGap rest) {cs : List Char}
    (hcs : ∀ c, cs.head? = some c → isQuote c = false) :
    pieceTail (cs ++ following n rest)
      = (pieceTail cs).map (Tail.closedBy n rest) := by
  have hhead : ∀ c, (cs ++ following n rest).head? = some c → isQuote c = false := by
    intro c hc
    cases cs with
    | nil => exact isQuote_of_not_isWordPart (isWordPart_head?_following hrest hc)
    | cons d ds => exact hcs c hc
  rw [pieceTail_of_not_quote hhead, pieceTail_of_not_quote hcs, wordTail_following hrest,
    wordTail_following hrest, tailWith_following hrest]
  simp only [Option.orElse_eq_orElse, Option.orElse_eq_or, Option.map_or]

/-- Words with the form of an operand have letters, digits, and three more characters. -/
theorem char_of_form {w : List Char} (h : isLiteralWord w = true ∨ isPlainName w = true) {c : Char}
    (hc : c ∈ w) : (c.isAlphanum = true ∨ c = '-' ∨ c = '.') ∨ c = '_' := by
  rcases h with h | h
  · rcases Bool.or_eq_true_iff.mp h with h | h
    · obtain ⟨negative, body, rfl, hb⟩ := (Number.isLiteral_iff w).mp h
      rcases List.mem_append.mp hc with hc | hc
      · cases negative with
        | true => exact .inl (.inr (.inl (List.mem_singleton.mp hc)))
        | false => cases hc
      · rcases digit_or_point_of_isNumeral hb hc with hd | hp
        · exact .inl (.inl (by rw [Char.isAlphanum, hd, Bool.or_true]))
        · exact .inl (.inr (.inr hp))
    · obtain ⟨b, hb⟩ := Option.isSome_iff_exists.mp h
      have hall : ∀ b, (truthWord b).toList.all Char.isAlphanum = true := by decide
      rw [eq_of_readTruth? hb] at hc
      exact .inl (.inl (List.all_eq_true.mp (hall b) c hc))
  · cases w with
    | nil => cases hc
    | cons d ds =>
      simp only [isPlainName, Bool.and_eq_true, List.all_eq_true, isNameTail, Bool.or_eq_true,
        beq_iff_eq] at h
      rcases List.mem_cons.mp hc with rfl | hc
      · exact .inl (.inl (by rw [Char.isAlphanum, h.1.1, Bool.true_or]))
      · rcases h.2 c hc with (hn | hu) | hm
        · exact .inl (.inl hn)
        · exact .inr hu
        · exact .inl (.inr (.inl hm))

/-- No piece is ended before a quote inside a word. -/
theorem pieceTail_before_quote {lead ds : List Char} {q : Char} (hne : lead ≠ [])
    (hlead : ∀ c ∈ lead, isWordPart c = true ∧ isQuote c = false) (hq : isQuote q = true) :
    pieceTail (lead ++ q :: ds) = none := by
  have hpart : isWordPart q = true := by
    rcases eq_of_isQuote hq with rfl | rfl
    · decide
    · decide
  have hword : q ∈ word (lead ++ q :: ds) := by
    have hcons : word (q :: ds) = q :: word ds := List.takeWhile_cons_of_pos hpart
    have happ : word (lead ++ q :: ds) = lead ++ word (q :: ds) :=
      List.takeWhile_append_of_pos fun c hc => (hlead c hc).1
    rw [happ, hcons]
    exact List.mem_append_right _ List.mem_cons_self
  have hform : ¬ (isLiteralWord (word (lead ++ q :: ds)) = true ∨
      isPlainName (word (lead ++ q :: ds)) = true) := by
    intro hform
    rcases char_of_form hform hword with h | rfl
    · rw [isQuote_of_wordHead h] at hq
      cases hq
    · exact absurd hq (by decide)
  obtain ⟨c, cs, rfl⟩ := List.exists_cons_of_ne_nil hne
  obtain ⟨hc, hquote⟩ := hlead c List.mem_cons_self
  have hend : tailWith none (c :: cs ++ q :: ds) = none := by
    rw [tailWith, List.cons_append,
      closing?_cons_of_ne (isWordPart_iff.mp hc).2 (isWordPart_iff.mp hc).1]
    rfl
  have hhead : ∀ d, (c :: cs ++ q :: ds).head? = some d → isQuote d = false :=
    fun d hd => Option.some.inj hd ▸ hquote
  rw [pieceTail_of_not_quote hhead, wordTail, wordTail, if_neg fun hl => hform (.inl hl),
    if_neg fun hn => hform (.inr hn), hend]
  rfl

theorem isPrefixOf_append {p : Char → Bool} {part ds : List Char} (hpart : ∀ c ∈ part, p c = true)
    (hds : ∀ c, ds.head? = some c → p c = false) (cs : List Char) :
    part.isPrefixOf (cs ++ ds) = part.isPrefixOf cs := by
  induction part generalizing cs with
  | nil => rw [List.isPrefixOf_nil_left, List.isPrefixOf_nil_left]
  | cons c part ih =>
    cases cs with
    | cons d cs =>
      rw [List.cons_append, List.isPrefixOf_cons_cons, List.isPrefixOf_cons_cons,
        ih fun c hc => hpart c (List.mem_cons_of_mem _ hc)]
    | nil =>
      cases ds with
      | nil => rfl
      | cons d ds =>
        have hne : (c == d) = false := by
          refine beq_eq_false_iff_ne.mpr fun he => ?_
          have hd := hds d rfl
          rw [← he, hpart c List.mem_cons_self] at hd
          cases hd
        rw [List.nil_append, List.isPrefixOf_cons_cons, hne, List.isPrefixOf_cons_nil,
          Bool.false_and]

/-- **The tries are the same** if they end the same wherever a lead reaches: no part of a lead goes
    on behind the text. -/
theorem firstTry_append {α β : Type} {parts : List (List Char)} {finish : List Char → Option α}
    {finish' : List Char → Option β} {f : α → β} {ds : List Char}
    (hparts : ∀ part ∈ parts, ∀ c ∈ part, isWordPart c = true)
    (hds : ∀ c, ds.head? = some c → isWordPart c = false) {cs : List Char}
    (h : ∀ lead es, lead ++ es = cs → (∀ c ∈ lead, parts.any (·.contains c) = true) →
      finish' (es ++ ds) = (finish es).map f) :
    firstTry parts finish' (cs ++ ds) = (firstTry parts finish cs).map (Option.map f) := by
  have hhere := h [] cs rfl nofun
  induction cs with
  | nil =>
    have hsingle : firstTry parts finish' ds = [finish' ds] := by
      cases ds with
      | nil => rfl
      | cons d ds =>
        have hd : parts.any (·.contains d) = false := by
          refine List.any_eq_false.mpr fun part hp hc => ?_
          have hd := hds d rfl
          rw [hparts part hp d (List.contains_iff_mem.mp hc)] at hd
          cases hd
        rw [firstTry, hd, if_neg Bool.false_ne_true]
    exact hsingle.trans (congrArg (fun found => [found]) hhere)
  | cons c cs ih =>
    rw [List.cons_append] at hhere ⊢
    rw [firstTry, firstTry, hhere]
    split
    · rename_i hc
      have hlater := ih
        (fun lead es he hl =>
          h (c :: lead) es (congrArg (c :: ·) he) (List.forall_mem_cons.mpr ⟨hc, hl⟩))
        (h [c] cs rfl (List.forall_mem_cons.mpr ⟨hc, nofun⟩))
      have hlonger : ∀ part ∈ parts, (if part.isPrefixOf (c :: (cs ++ ds)) then
            (firstTry parts finish' (cs ++ ds))[part.length - 1]?.join else none)
          = (if part.isPrefixOf (c :: cs) then
            (firstTry parts finish cs)[part.length - 1]?.join else none).map f := by
        intro part hp
        rw [hlater, List.getElem?_map, Option.join_map_eq_map_join, ← List.cons_append,
          isPrefixOf_append (hparts part hp) hds]
        split <;> rfl
      rw [List.map_cons, ← hlater]
      refine congrArg (· :: _) ?_
      simp only [Option.orElse_eq_orElse, Option.orElse_eq_or, Option.map_or, List.map_findSome?]
      rw [findSome?_congr hlonger]
      rfl
    · rfl

/-! ## 4. The front of a text -/

/-- A piece that could be ended at a quote was: no lead goes on behind it, and no try before it
    succeeds. -/
theorem place_of_quote {lead lead' ds es : List Char} {q : Char} {tail : Tail}
    (hlead : ∀ c ∈ lead, isQuote c = false)
    (hlead' : ∀ c ∈ lead', isWordPart c = true ∧ isQuote c = false) (hq : isQuote q = true)
    (hcs : lead ++ ds = lead' ++ q :: es)
    (hfinish : pieceTail ds = some tail) : ds = q :: es := by
  rcases List.append_eq_append_iff.mp hcs with ⟨as, rfl, hds⟩ | ⟨as, hl, hes⟩
  · by_cases hne : as = []
    · rw [hds, hne, List.nil_append]
    · rw [hds, pieceTail_before_quote hne (fun c hc => hlead' c (List.mem_append_right _ hc)) hq]
        at hfinish
      cases hfinish
  · cases as with
    | nil => exact hes.symm
    | cons c as =>
      have hmem : c ∈ lead := by
        rw [hl]
        exact List.mem_append_right _ List.mem_cons_self
      have hc := hlead c hmem
      rw [← (List.cons.inj hes).1, hq] at hc
      cases hc

/-- **A piece stays the piece it is**, unless it is a literal that lacks a quote. -/
theorem piece_following (hrest : AtGap rest) {parts : List (List Char)}
    (hparts : ∀ part ∈ parts, ∀ c ∈ part, isWordPart c = true ∧ isQuote c = false)
    {cs : List Char} {piece : Piece}
    (h : Piece.read? parts pieceTail cs = some piece)
    (hmore : ∀ q ds, piece.lead ++ q :: ds = cs → isQuote q = true →
      cutAtQuote q false ds = none → q ∉ rest) :
    Piece.read? parts pieceTail (cs ++ following n rest)
      = some ⟨piece.lead, piece.tail.closedBy n rest⟩ := by
  have hmem : ∀ {lead : List Char}, (∀ c ∈ lead, parts.any (·.contains c) = true) →
      ∀ c ∈ lead, isWordPart c = true ∧ isQuote c = false := by
    intro lead hlead c hc
    obtain ⟨part, hp, hcp⟩ := List.any_eq_true.mp (hlead c hc)
    exact hparts part hp c (List.contains_iff_mem.mp hcp)
  obtain ⟨ds, hcs, hlead, hfinish⟩ := exists_place_of_piece h
  have hplaces : ∀ lead es, lead ++ es = cs → (∀ c ∈ lead, parts.any (·.contains c) = true) →
      pieceTail (es ++ following n rest)
        = (pieceTail es).map (Tail.closedBy n rest) := by
    intro lead es he hl
    by_cases hhead : ∀ c, es.head? = some c → isQuote c = false
    · exact pieceTail_following hrest hhead
    · simp only [not_forall, Bool.not_eq_false] at hhead
      obtain ⟨q, hq, hquote⟩ := hhead
      obtain ⟨es, rfl⟩ := List.head?_eq_some_iff.mp hq
      obtain rfl := place_of_quote (fun c hc => (hmem hlead c hc).2) (hmem hl) hquote
        (hcs.trans he.symm) hfinish
      rw [pieceTail_quote hquote] at hfinish
      rw [List.cons_append, pieceTail_quote hquote, pieceTail_quote hquote, hfinish]
      exact literalTail_following hrest hquote hfinish (hmore q es hcs hquote)
  have htries : firstTry parts
        (fun ds => (pieceTail ds).map fun tail => (ds, tail))
        (cs ++ following n rest)
      = (firstTry parts
          (fun ds => (pieceTail ds).map fun tail => (ds, tail)) cs).map
        (Option.map fun found => (found.1 ++ following n rest, found.2.closedBy n rest)) := by
    refine firstTry_append (fun part hp c hc => (hparts part hp c hc).1)
      (fun c hc => isWordPart_head?_following hrest hc) fun lead es he hl => ?_
    rw [hplaces lead es he hl, Option.map_map, Option.map_map]
    rfl
  obtain ⟨⟨es, tail⟩, hfound, he⟩ := Option.map_eq_some_iff.mp h
  cases he
  rw [Piece.read?, htries, List.head?_map, Option.join_map_eq_map_join, hfound]
  show some (Piece.mk _ _) = some (Piece.mk _ _)
  rw [List.length_append, List.length_append, Nat.add_sub_add_right,
    List.take_append_of_le_length (Nat.sub_le _ _)]

end Following

namespace Grammar

variable {r : Registry} {n : Nat} {rest : List Char}

/-- Parts of leads are the opening bracket and symbols. -/
theorem char_of_leadParts {g : Grammar} {part : List Char} (hp : part ∈ g.leadParts) {c : Char}
    (hc : c ∈ part) : isWordPart c = true ∧ isQuote c = false := by
  rcases List.mem_cons.mp hp with rfl | hp
  · rw [List.mem_singleton.mp hc]
    decide
  · obtain ⟨operator, hm, rfl⟩ := List.mem_map.mp hp
    have hsymbol := OperatorName.isSymbolChar_of_isSymbol (mem_symbolNegations.mp hm).2 hc
    exact ⟨isWordPart_of_isSymbolChar hsymbol, isQuote_of_isSymbolChar hsymbol⟩

/-- The elements of a piece end with its closing brackets, whatever their number. -/
theorem exists_opened_of_pieceElements {g : Grammar} {piece : Piece} {es : Condition}
    (h : g.pieceElements piece = .ok es) : ∃ opened : Condition,
      (∀ m rest, g.pieceElements ⟨piece.lead, ⟨piece.tail.lexeme, m, rest⟩⟩
        = .ok (opened ++ List.replicate m (.bracket .closing))) ∧
      es = opened ++ List.replicate piece.tail.closing (.bracket .closing) ∧
      ∀ lexeme, piece.tail.lexeme = some lexeme →
        ∃ o, Operand.ofLexeme g.isName lexeme = .ok o ∧ .operand o ∈ opened := by
  simp only [pieceElements] at h ⊢
  cases hl : leadElements? g.symbolNegations 0 piece.lead with
  | none =>
    rw [hl] at h
    cases h
  | some lead =>
    rw [hl] at h
    cases hx : piece.tail.lexeme with
    | none =>
      rw [hx] at h
      cases h
      refine ⟨lead ++ [], fun _ _ => rfl, rfl, fun _ he => ?_⟩
      cases he
    | some lexeme =>
      rw [hx] at h
      obtain ⟨_, ⟨⟩, h⟩ := bind_eq_ok_iff.mp h
      obtain ⟨_, ho, ⟨⟩⟩ := bind_eq_ok_iff.mp h
      obtain ⟨o, hlexeme, rfl⟩ := map_eq_ok_iff.mp ho
      refine ⟨lead ++ [.operand o], fun _ _ => ?_, rfl, fun lexeme' he => ⟨o, ?_, ?_⟩⟩
      · simp only [hlexeme]
        rfl
      · rw [← Option.some.inj he]
        exact hlexeme
      · exact List.mem_append_right _ List.mem_cons_self

/-- A chunk that is read as an operator is one. -/
theorem exists_name_of_readOperator {w : List Char} {e : Element}
    (h : r.grammar.isOperatorChunk w = true) (he : r.grammar.readOperator w = .ok e) :
    ∃ name, e.operatorName? = some name := by
  cases ho : r.grammar.operator? w with
  | none =>
    rw [readOperator_of_isOperatorChunk h ho] at he
    cases he
  | some operator =>
    rw [readOperator, ho] at he
    cases he
    simp only [operator?, Option.orElse_eq_orElse, Option.orElse_eq_or, Option.or_eq_some_iff,
      Option.map_eq_some_iff] at ho
    obtain ⟨_, -, rfl⟩ | ⟨-, ⟨_, -, rfl⟩ | ⟨-, _, -, rfl⟩⟩ := ho <;> exact ⟨_, rfl⟩

theorem isClosable_of_operatorName? {e : Element} {name : OperatorName}
    (h : e.operatorName? = some name) : e.isClosable = false := by
  cases e with
  | operand o => cases h
  | bracket b => cases h
  | _ => rfl

theorem not_blank_of_mem_chunk {cs : List Char} {c : Char} (h : c ∈ chunk cs) :
    isBlank c = false := by
  have hc : (!isBlank c) = true := List.all_eq_true.mp List.all_takeWhile c h
  cases hb : isBlank c with
  | false => rfl
  | true =>
    rw [hb] at hc
    cases hc

/-- Behind a chunk that ends at a gap the text is as it was. -/
theorem chunk_before {cs ds : List Char} (h : AtGap (afterChunk cs ++ ds)) :
    chunk (cs ++ ds) = chunk cs ∧ afterChunk (cs ++ ds) = afterChunk cs ++ ds := by
  have hblank : ∀ c ∈ chunk cs, isBlank c = false := fun _ hc => not_blank_of_mem_chunk hc
  have hcut := chunk_append hblank h
  rwa [← List.append_assoc, chunk_append_afterChunk] at hcut

theorem atGap_append {cs ds : List Char} (hcs : AtGap cs) (h : cs = [] → AtGap ds) :
    AtGap (cs ++ ds) := by
  cases cs with
  | nil => exact h rfl
  | cons c cs => exact hcs

/-- **Closing brackets make no operator of a chunk** that is none. -/
theorem isOperatorChunk_following (hrest : AtGap rest) {cs : List Char}
    (h : r.grammar.isOperatorChunk (chunk cs) = false) :
    r.grammar.isOperatorChunk (chunk (cs ++ following n rest)) = false := by
  by_cases hgap : AtGap (afterChunk cs ++ following n rest)
  · rwa [(chunk_before hgap).1]
  · -- the text is all one chunk, and the brackets go on with it
    have hend : afterChunk cs = [] := by
      refine Classical.byContradiction fun hne => hgap ?_
      exact atGap_append (atGap_afterChunk cs) fun hnil => absurd hnil hne
    have hchunk : chunk cs = cs := by
      have happ := chunk_append_afterChunk cs
      rwa [hend, List.append_nil] at happ
    have hblank : ∀ c ∈ cs ++ List.replicate n ')', isBlank c = false := by
      intro c hc
      rcases List.mem_append.mp hc with hc | hc
      · rw [← hchunk] at hc
        exact not_blank_of_mem_chunk hc
      · exact not_blank_of_mem_closing hc
    have hwhole := (chunk_append hblank hrest).1
    rw [List.append_assoc] at hwhole
    rw [following, hwhole]
    cases n with
    | zero =>
      rw [hend] at hgap
      exact absurd hrest hgap
    | succ n =>
      have hmem : ')' ∈ cs ++ List.replicate (n + 1) ')' :=
        List.mem_append_right _ List.mem_cons_self
      refine isOperatorChunk_of_foreign ⟨⟨')', hmem, by decide⟩, fun name _ _ he => ?_⟩
      exact absurd (OperatorName.isWordPart_of_mem (he ▸ hmem)) (by decide)

/-- An operator stays the operator it is, before a gap. -/
theorem readFront_following_operator (hrest : AtGap rest) {cs left : List Char} {es : Condition}
    (hop : r.grammar.isOperatorChunk (chunk cs) = true)
    (h : r.grammar.readFront cs = .ok (es, left))
    (hlast : n = 0 ∨ left ≠ [] ∨ ∀ e, es.getLast? = some e → e.isClosable = true) :
    r.grammar.readFront (cs ++ following n rest)
      = .ok (if left = [] then (es ++ List.replicate n (.bracket .closing), rest)
          else (es, left ++ following n rest)) := by
  rw [readFront, if_pos hop] at h
  obtain ⟨e, he, hfront⟩ := map_eq_ok_iff.mp h
  cases hfront
  have hzero : afterChunk cs = [] → n = 0 := by
    intro hleft
    rcases hlast with hn | hne | hclosable
    · exact hn
    · exact absurd hleft hne
    · obtain ⟨name, hname⟩ := exists_name_of_readOperator hop he
      have hnot := isClosable_of_operatorName? hname
      rw [hclosable e rfl] at hnot
      cases hnot
  have hgap : AtGap (afterChunk cs ++ following n rest) :=
    atGap_append (atGap_afterChunk cs) fun hleft => by rwa [hzero hleft]
  rw [readFront, (chunk_before hgap).1, (chunk_before hgap).2, if_pos hop, he]
  split
  · rename_i hleft
    rw [hleft, hzero hleft]
    rfl
  · rfl

/-- A literal that does not escape its last quote has an unescaped one. -/
theorem cutAtQuote_ne_none_of_piece {g : Grammar} {parts : List (List Char)} {cs ds : List Char}
    {q : Char} {piece : Piece}
    (h : Piece.read? parts pieceTail cs = some piece)
    (hcs : piece.lead ++ q :: ds = cs) (hq : isQuote q = true) {opened : Condition}
    (hoperand : ∀ lexeme, piece.tail.lexeme = some lexeme →
      ∃ o, Operand.ofLexeme g.isName lexeme = .ok o ∧ .operand o ∈ opened)
    (hends : ∀ body, .operand (.text body) ∈ opened → endsEscaped false body.toList = false) :
    cutAtQuote q false ds ≠ none := by
  obtain ⟨ds', hcs', -, hfinish⟩ := exists_place_of_piece h
  obtain rfl : ds' = q :: ds := List.append_cancel_left (hcs'.trans hcs.symm)
  rw [pieceTail_quote hq] at hfinish
  obtain ⟨body, hlexeme⟩ := exists_body_of_literalTail hfinish
  obtain ⟨o, ho, hmem⟩ := hoperand _ hlexeme
  obtain ⟨rfl, hbare⟩ := Operand.eq_text_of_quoted hq ho
  have hend := hends _ hmem
  rw [String.toList_ofList] at hend
  exact cutAtQuote_ne_none hfinish hlexeme hbare hend

/-- **The front of a text is read as before**, whatever comes behind a gap; closing brackets become
    part of it if it goes up to the end. -/
theorem readFront_following (hrest : AtGap rest) {cs left : List Char} {es : Condition}
    (h : r.grammar.readFront cs = .ok (es, left))
    (hends : rest = [] ∨
      ∀ body, .operand (.text body) ∈ es → endsEscaped false body.toList = false)
    (hlast : n = 0 ∨ left ≠ [] ∨ ∀ e, es.getLast? = some e → e.isClosable = true) :
    r.grammar.readFront (cs ++ following n rest)
      = .ok (if left = [] then (es ++ List.replicate n (.bracket .closing), rest)
          else (es, left ++ following n rest)) := by
  cases hop : r.grammar.isOperatorChunk (chunk cs) with
  | true => exact readFront_following_operator hrest hop h hlast
  | false =>
    rw [readFront, hop, if_neg Bool.false_ne_true] at h
    rw [readFront, isOperatorChunk_following hrest hop, if_neg Bool.false_ne_true]
    split at h
    · rename_i piece hpiece
      obtain ⟨elements, helements, hfront⟩ := map_eq_ok_iff.mp h
      cases hfront
      obtain ⟨opened, hopened, rfl, hoperand⟩ := exists_opened_of_pieceElements helements
      have hread := piece_following (n := n) hrest (fun _ hp _ hc => char_of_leadParts hp hc) hpiece
        (fun q ds hcs hq hnone => ?_)
      · rw [hread]
        show (r.grammar.pieceElements ⟨piece.lead, ⟨piece.tail.lexeme, _, _⟩⟩).map _ = _
        rw [hopened]
        show Except.ok (_, (closedBy n rest (piece.tail.closing, piece.tail.rest)).2) = _
        rw [closedBy]
        split
        · rw [List.append_assoc, List.replicate_append_replicate]
        · rfl
      · rcases hends with rfl | hends
        · exact List.not_mem_nil
        · refine absurd hnone (cutAtQuote_ne_none_of_piece hpiece hcs hq hoperand ?_)
          exact fun body hmem => hends body (List.mem_append_left _ hmem)
    · cases h

/-! ## 5. Whole texts -/

theorem readFront_nil : r.grammar.readFront [] = .ok ([], []) := by
  have hop : r.grammar.isOperatorChunk [] = false := by
    refine List.any_eq_false.mpr fun name _ hname => ?_
    exact name.chars_ne_nil (beq_iff_eq.mp (Bool.and_eq_true_iff.mp hname).2)
  rw [readFront, show chunk [] = [] from rfl, hop]
  rfl

/-- Closing brackets before a gap are read by themselves. -/
theorem readFrom_closings (hrest : AtGap rest) :
    r.grammar.readFrom 0 (following n rest)
      = (r.grammar.readFrom 0 rest).map (List.replicate n (.bracket .closing) ++ ·) := by
  cases n with
  | zero =>
    show r.grammar.readFrom 0 rest = (r.grammar.readFrom 0 rest).map id
    cases r.grammar.readFrom 0 rest <;> rfl
  | succ n =>
    have hfront := readFront_following (r := r) (n := n + 1) hrest readFront_nil (.inr nofun)
      (.inr (.inr nofun))
    have hcons : following (n + 1) rest = ')' :: following n rest := rfl
    rw [hcons, readFrom_cons (by decide), ← hcons]
    rw [List.nil_append] at hfront
    rw [hfront]
    rfl

/-- **What comes behind a text is read behind it.** Closing brackets become part of the last piece,
    unless an operator is last. The induction is on the reading, front by front. -/
theorem readFrom_following (hrest : AtGap rest) {cs : List Char} {es : Condition}
    (h : r.grammar.readFrom 0 cs = .ok es)
    (hends : rest = [] ∨
      ∀ body, .operand (.text body) ∈ es → endsEscaped false body.toList = false)
    (hlast : n = 0 ∨ ∀ e, es.getLast? = some e → e.isClosable = true) :
    r.grammar.readFrom 0 (cs ++ following n rest)
      = (r.grammar.readFrom 0 rest).map (es ++ List.replicate n (.bracket .closing) ++ ·) := by
  refine readFrom_induction (motive := fun cs es =>
    (rest = [] ∨ ∀ body, .operand (.text body) ∈ es → endsEscaped false body.toList = false) →
    (n = 0 ∨ ∀ e, es.getLast? = some e → e.isClosable = true) →
    r.grammar.readFrom 0 (cs ++ following n rest)
      = (r.grammar.readFrom 0 rest).map (es ++ List.replicate n (.bracket .closing) ++ ·))
    ?blank ?front h hends hlast
  case blank =>
    intro gap hgap _ _
    rw [readFrom_blanks _ hgap, readFrom_closings hrest, List.nil_append]
  case front =>
    intro gap c ds es left more hgap hc hfront _ hmore ih hends hlast
    have hfront' := readFront_following (n := n) hrest hfront
      (hends.imp_right fun h body hm => h body (List.mem_append_left _ hm)) ?last
    case last =>
      refine hlast.imp_right fun h => ?_
      by_cases hleft : left = []
      · subst hleft
        cases hmore
        rw [List.append_nil] at h
        exact .inr h
      · exact .inl hleft
    rw [List.append_assoc, readFrom_blanks _ hgap, List.cons_append, readFrom_cons hc,
      ← List.cons_append, hfront']
    split
    · rename_i hleft
      subst hleft
      cases hmore
      rw [List.append_nil]
      rfl
    · have hrec := ih (hends.imp_right fun h body hm => h body (List.mem_append_right _ hm))
        (hlast.imp_right fun h e he => h e (by rw [List.getLast?_append, he]; rfl))
      show (r.grammar.readFrom 0 (left ++ following n rest)).map (es ++ ·) = _
      rw [hrec]
      cases r.grammar.readFrom 0 rest with
      | error x => rfl
      | ok d =>
        show Except.ok _ = Except.ok _
        simp only [List.append_assoc]

/-! ## 6. Texts with a gap between them -/

theorem ofLexeme_ne_empty (isName : List Char → Bool) (lexeme : List Char) :
    Operand.ofLexeme isName lexeme ≠ .error .empty := by
  intro h
  have hread := Operand.classified isName lexeme
  rw [h] at hread
  cases hread

/-- A piece without elements is at fault for its lead, or for its operand. -/
theorem exists_cause_of_pieceElements {g : Grammar} {piece : Piece} {x : Fault}
    (h : g.pieceElements piece = .error x) :
    x = .unknownElement (String.ofList piece.lead) ∨
      ∃ lexeme, piece.tail.lexeme = some lexeme ∧ Operand.ofLexeme g.isName lexeme = .error x := by
  simp only [pieceElements] at h
  cases hl : leadElements? g.symbolNegations 0 piece.lead with
  | none =>
    rw [hl] at h
    cases h
    exact .inl rfl
  | some lead =>
    rw [hl] at h
    cases hx : piece.tail.lexeme with
    | none =>
      rw [hx] at h
      cases h
    | some lexeme =>
      rw [hx] at h
      obtain h | ⟨_, -, h⟩ := bind_eq_error_iff.mp h
      · cases h
      · obtain h | ⟨_, -, h⟩ := bind_eq_error_iff.mp h
        · exact .inr ⟨lexeme, rfl, map_eq_error_iff.mp h⟩
        · cases h

theorem readOperator_ne_empty (g : Grammar) (chunk : List Char) :
    g.readOperator chunk ≠ .error .empty := by
  unfold readOperator
  split
  · intro h
    cases h
  · exact fun h => ofLexeme_ne_empty _ _ (map_eq_error_iff.mp h)

theorem pieceElements_ne_empty (g : Grammar) (piece : Piece) :
    g.pieceElements piece ≠ .error .empty := by
  intro h
  obtain hx | ⟨_, -, hx⟩ := exists_cause_of_pieceElements h
  · cases hx
  · exact ofLexeme_ne_empty _ _ hx

theorem readFront_ne_empty (g : Grammar) (cs : List Char) : g.readFront cs ≠ .error .empty := by
  unfold readFront
  intro h
  split at h
  · exact readOperator_ne_empty _ _ (map_eq_error_iff.mp h)
  · split at h
    · exact pieceElements_ne_empty _ _ (map_eq_error_iff.mp h)
    · cases h

/-- Only a text without elements is found empty. -/
theorem readFrom_ne_empty (g : Grammar) (cs : List Char) : g.readFrom 0 cs ≠ .error .empty := by
  intro h
  obtain ⟨before, c, ds, -, -, -, hfront⟩ := exists_front_of_error h
  exact readFront_ne_empty g _ hfront

/-- **Texts with a gap between them are read side by side**, with any operators: the elements of the
    second come behind those of the first, and a fault of the second is a fault of the whole, unless
    it is that the second has no elements. -/
theorem read_append {front gap behind : String} {c : Condition} (hgap : AllBlank gap.toList)
    (hne : gap ≠ "") (h : r.grammar.read front = .ok c)
    (hends : ∀ body, .operand (.text body) ∈ c → endsEscaped false body.toList = false) :
    r.grammar.read (front ++ gap ++ behind) =
      match r.grammar.read behind with
      | .ok d => .ok (c ++ d)
      | .error .empty => .ok c
      | .error x => .error x := by
  obtain ⟨hfront, hc⟩ := read_eq_ok_iff.mp h
  have hrest : AtGap (gap.toList ++ behind.toList) := by
    cases hg : gap.toList with
    | nil => exact absurd (String.toList_eq_nil_iff.mp hg) hne
    | cons d ds => exact atGap_cons.mpr (hgap d (by rw [hg]; exact List.mem_cons_self))
  have hwhole := readFrom_following (n := 0) hrest hfront (.inr hends) (.inl rfl)
  rw [List.replicate_zero, List.append_nil, readFrom_blanks _ hgap] at hwhole
  have htext : (front ++ gap ++ behind).toList
      = front.toList ++ following 0 (gap.toList ++ behind.toList) := by
    rw [String.toList_append, String.toList_append, List.append_assoc]
    rfl
  rw [read, htext, grammar_elements, hwhole, read, grammar_elements]
  cases hb : r.grammar.readFrom 0 behind.toList with
  | error x =>
    cases x with
    | empty => exact absurd hb (readFrom_ne_empty _ _)
    | _ => rfl
  | ok d =>
    obtain ⟨e, c, rfl⟩ := List.exists_cons_of_ne_nil hc
    cases d with
    | nil =>
      show Except.ok (e :: c ++ []) = Except.ok (e :: c)
      rw [List.append_nil]
    | cons e' d => rfl

/-- Behind a literal that holds a blank, two blanks and a connective. -/
theorem read_append_literal :
    AllBlank "\u3000\t".toList ∧ "\u3000\t" ≠ "" ∧
      Registry.default.grammar.read "!('a b' == name)" = .ok [.negation .not, .bracket .opening,
        .operand (.text "a b"), .comparison .equal, .operand (.var "name"), .bracket .closing] ∧
      Registry.default.grammar.read ("!('a b' == name)" ++ "\u3000\t" ++ "|| (on") =
        .ok [.negation .not, .bracket .opening, .operand (.text "a b"), .comparison .equal,
          .operand (.var "name"), .bracket .closing, .connective .or, .bracket .opening,
          .operand (.var "on")] := by
  have hgap : AllBlank "\u3000\t".toList := List.all_eq_true.mp (by decide)
  have hread : Registry.default.grammar.read "!('a b' == name)" = .ok [.negation .not,
      .bracket .opening, .operand (.text "a b"), .comparison .equal, .operand (.var "name"),
      .bracket .closing] := rfl
  refine ⟨hgap, by decide, hread, read_append hgap (by decide) hread fun body hm => ?_⟩
  simp only [List.mem_cons, reduceCtorEq, Element.operand.injEq, Operand.text.injEq, false_or,
    List.not_mem_nil, or_false] at hm
  rw [hm]
  decide

end Grammar

end Verdict
