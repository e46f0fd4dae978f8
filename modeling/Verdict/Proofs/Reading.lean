import Mathlib.Data.List.Basic
import Verdict.Grammar
import Verdict.Proofs.Outcome

/-!
# Reading from left to right

`Grammar.readFrom` counts the characters it has to pass over. This file takes the count away: what
is read at the front of a text leaves a shorter text behind, which is read next. It holds for every
registry and every form of names, because all ways to read the front end in the same place, a GAP
(`AtGap`): a blank, or the end of the text.

* `chars_of_piece` -- a piece is made of its lead, its lexeme and its closing brackets, and nothing
  of the text is lost.
* `rest_of_readFront` -- what is left behind the front is an end of the text, at a gap.
* `readFrom_cons`, `readFrom_skipBlank` -- the two steps of reading: the front, and the blanks.
* `front_induction`, `readFrom_induction` -- what all steps keep holds of every text, or of every text
  that is read.
* `exists_front_of_error` -- a fault is the fault of a front, at the start or behind a blank.
-/

namespace Verdict

open Text

/-! ## 1. Gaps -/

/-- Where a test holds of a text and fails behind it, it cuts there. -/
theorem cut_append {p : Char → Bool} {cs rest : List Char} (hp : ∀ c ∈ cs, p c = true)
    (hr : ∀ c, rest.head? = some c → p c = false) :
    (cs ++ rest).takeWhile p = cs ∧ (cs ++ rest).dropWhile p = rest := by
  have hrest : rest.takeWhile p = [] ∧ rest.dropWhile p = rest := by
    cases rest with
    | nil => exact ⟨rfl, rfl⟩
    | cons c rest =>
      have hc := Bool.eq_false_iff.mp (hr c rfl)
      exact ⟨List.takeWhile_cons_of_neg hc, List.dropWhile_cons_of_neg hc⟩
  rw [List.takeWhile_append_of_pos hp, List.dropWhile_append_of_pos hp, hrest.1, hrest.2,
    List.append_nil]
  exact ⟨rfl, rfl⟩

/-- The text is at its end, or goes on with a blank. -/
def AtGap (cs : List Char) : Prop := ∀ c, cs.head? = some c → isBlank c = true

theorem atGap_nil : AtGap [] := by
  intro c h
  cases h

theorem atGap_cons {c : Char} {cs : List Char} : AtGap (c :: cs) ↔ isBlank c = true :=
  ⟨fun h => h c rfl, fun h _ hd => Option.some.inj hd ▸ h⟩

theorem all_head?_isBlank_iff (cs : List Char) : cs.head?.all isBlank = true ↔ AtGap cs := by
  cases cs with
  | nil => exact ⟨fun _ => atGap_nil, fun _ => rfl⟩
  | cons c cs => exact atGap_cons.symm

theorem chunk_cons_of_blank {c : Char} (hc : isBlank c = true) (cs : List Char) :
    chunk (c :: cs) = [] ∧ afterChunk (c :: cs) = c :: cs := by
  have hn : ¬ (!isBlank c) = true := by
    rw [hc]
    exact Bool.false_ne_true
  exact ⟨List.takeWhile_cons_of_neg (p := (!isBlank ·)) hn,
    List.dropWhile_cons_of_neg (p := (!isBlank ·)) hn⟩

theorem chunk_cons_of_not_blank {c : Char} (hc : isBlank c = false) (cs : List Char) :
    chunk (c :: cs) = c :: chunk cs ∧ afterChunk (c :: cs) = afterChunk cs := by
  have hn : (!isBlank c) = true := by
    rw [hc]
    rfl
  exact ⟨List.takeWhile_cons_of_pos (p := (!isBlank ·)) hn,
    List.dropWhile_cons_of_pos (p := (!isBlank ·)) hn⟩

theorem atGap_afterChunk (cs : List Char) : AtGap (afterChunk cs) := by
  induction cs with
  | nil => exact atGap_nil
  | cons c cs ih =>
    by_cases hc : isBlank c = true
    · rw [(chunk_cons_of_blank hc cs).2]
      exact atGap_cons.mpr hc
    · rw [(chunk_cons_of_not_blank (Bool.eq_false_iff.mpr hc) cs).2]
      exact ih

theorem chunk_append {cs rest : List Char} (hcs : ∀ c ∈ cs, isBlank c = false) (hr : AtGap rest) :
    chunk (cs ++ rest) = cs ∧ afterChunk (cs ++ rest) = rest :=
  cut_append (p := (!isBlank ·)) (fun c hc => by rw [hcs c hc]; rfl)
    (fun c hc => by rw [hr c hc]; rfl)

theorem isBlank_of_skipBlank {cs ds : List Char} {c : Char} (h : skipBlank cs = c :: ds) :
    isBlank c = false := by
  have hd := List.head?_dropWhile_not isBlank cs
  rw [show cs.dropWhile isBlank = c :: ds from h] at hd
  exact hd

/-- An end of a text, at a gap, is shorter than the text if that begins with no blank. -/
theorem length_lt_of_suffix {c : Char} {cs rest : List Char} (hc : isBlank c = false)
    (h : rest <:+ c :: cs) (hg : AtGap rest) : rest.length < (c :: cs).length := by
  refine Nat.lt_of_le_of_ne h.length_le fun he => ?_
  have heq := h.eq_of_length he
  rw [heq, atGap_cons, hc] at hg
  cases hg

/-! ## 2. What a piece is made of -/

/-- The characters of the rest of a piece, and the text behind it. -/
def Tail.chars (tail : Tail) : List Char :=
  tail.lexeme.getD [] ++ (List.replicate tail.closing ')' ++ tail.rest)

/-- **Nothing of the text is lost**: it is the lexeme, the closing brackets and what is left, which
    is at a gap. -/
def TailOf (cs : List Char) (tail : Tail) : Prop := tail.chars = cs ∧ AtGap tail.rest

theorem TailOf.rest_suffix {cs : List Char} {tail : Tail} (h : TailOf cs tail) : tail.rest <:+ cs :=
  h.1 ▸ ((List.suffix_append _ _).trans (List.suffix_append _ _))

theorem closing?_rest {cs rest : List Char} {n : Nat} (h : closing? cs = some (n, rest)) :
    rest <:+ cs ∧ AtGap rest := by
  refine ⟨⟨_, closing?_append h⟩, ?_⟩
  simp only [closing?] at h
  split at h
  · rename_i hg
    cases h
    exact (all_head?_isBlank_iff _).mp hg
  · cases h

theorem tailOf_tailWith {lexeme : Option (List Char)} {cs : List Char} {tail : Tail}
    (h : tailWith lexeme cs = some tail) : TailOf (lexeme.getD [] ++ cs) tail := by
  obtain ⟨⟨n, rest⟩, hc, he⟩ := Option.map_eq_some_iff.mp h
  cases he
  exact ⟨congrArg (_ ++ ·) (closing?_append hc), (closing?_rest hc).2⟩

theorem tailOf_wordTail {form : List Char → Bool} {cs : List Char} {tail : Tail}
    (h : wordTail form cs = some tail) : TailOf cs tail := by
  have hword : word cs ++ afterWord cs = cs := List.takeWhile_append_dropWhile
  simp only [wordTail] at h
  split at h
  · have ht := tailOf_tailWith h
    rwa [Option.getD_some, hword] at ht
  · cases h

theorem cutAtAnyQuote_append {q : Char} {cs body rest : List Char} {n : Nat}
    (h : cutAtAnyQuote q cs = some (body, n, rest)) :
    body ++ q :: (List.replicate n ')' ++ rest) = cs ∧ AtGap rest := by
  induction cs generalizing body with
  | nil => cases h
  | cons c cs ih =>
    simp only [cutAtAnyQuote] at h
    split at h
    · rename_i hc
      cases h
      split at hc
      · rename_i hq
        rw [beq_iff_eq.mp hq, closing?_append hc]
        exact ⟨rfl, (closing?_rest hc).2⟩
      · cases hc
    · obtain ⟨⟨body', m, rest'⟩, hb, he⟩ := Option.map_eq_some_iff.mp h
      cases he
      obtain ⟨hcs, hg⟩ := ih hb
      exact ⟨congrArg (c :: ·) hcs, hg⟩

theorem tailOf_literalTail {q : Char} {cs : List Char} {tail : Tail}
    (h : literalTail q cs = some tail) : TailOf (q :: cs) tail := by
  have hquoted : ∀ body rest : List Char,
      (q :: body ++ [q]) ++ rest = q :: (body ++ q :: rest) := by
    intro body rest
    rw [List.cons_append, List.cons_append, List.append_assoc, List.singleton_append]
  simp only [literalTail, Option.orElse_eq_orElse, Option.orElse_eq_or, Option.or_eq_some_iff] at h
  rcases h with h | ⟨-, h⟩
  · obtain ⟨⟨body, rest⟩, hc, ht⟩ := Option.bind_eq_some_iff.mp h
    have htail := tailOf_tailWith ht
    rwa [Option.getD_some, hquoted, cutAtQuote_append hc] at htail
  · obtain ⟨⟨body, n, rest⟩, hc, he⟩ := Option.map_eq_some_iff.mp h
    cases he
    obtain ⟨hcs, hg⟩ := cutAtAnyQuote_append hc
    exact ⟨(hquoted body _).trans (congrArg (q :: ·) hcs), hg⟩

/-- A text literal that a piece ends with begins with one of two quotes. -/
theorem exists_literalTail {cs : List Char} {tail : Tail} (h : quotedTail cs = some tail) :
    ∃ q ds, cs = q :: ds ∧ (q = '\'' ∨ q = '"') ∧ literalTail q ds = some tail := by
  unfold quotedTail at h
  split at h
  · exact ⟨_, _, rfl, .inl rfl, h⟩
  · exact ⟨_, _, rfl, .inr rfl, h⟩
  · cases h

/-- Whatever a piece ends with behind its lead. -/
theorem tailOf_pieceTail {cs : List Char} {tail : Tail} (h : pieceTail cs = some tail) :
    TailOf cs tail := by
  simp only [pieceTail, Option.orElse_eq_orElse, Option.orElse_eq_or, Option.or_eq_some_iff] at h
  rcases h with h | ⟨-, h⟩
  · obtain ⟨q, ds, rfl, -, hliteral⟩ := exists_literalTail h
    exact tailOf_literalTail hliteral
  · rcases h with h | ⟨-, h | ⟨-, h⟩⟩
    · exact tailOf_wordTail h
    · exact tailOf_wordTail h
    · exact tailOf_tailWith h

/-! ## 3. The loop -/

/-- Whatever is read at a front takes something from a text that begins with no blank, and leaves an
    end of it. -/
def Onward (front : List Char → Except Fault (Condition × List Char)) : Prop :=
  ∀ (c : Char) (cs rest : List Char) (es : Condition), isBlank c = false →
    front (c :: cs) = .ok (es, rest) → rest <:+ cs

section Loop

open Grammar (readBy)

variable {front : List Char → Except Fault (Condition × List Char)} {c : Char}

/-- The front of a text is read, and then what it leaves. -/
theorem Onward.readBy_cons (h : Onward front) (hc : isBlank c = false) (cs : List Char) :
    readBy front 0 (c :: cs)
      = (front (c :: cs)).bind fun (es, rest) => (readBy front 0 rest).map (es ++ ·) := by
  have hstep : readBy front 0 (c :: cs) = (front (c :: cs)).bind fun (es, rest) =>
      (readBy front (cs.length - rest.length) cs).map (es ++ ·) := by
    simp only [readBy, hc, Bool.false_eq_true, ↓reduceIte]
    rfl
  rw [hstep]
  cases hf : front (c :: cs) with
  | error x => rfl
  | ok read =>
    obtain ⟨es, rest⟩ := read
    have hrest : cs.drop (cs.length - rest.length) = rest :=
      (List.suffix_iff_eq_drop.mp (h c cs rest es hc hf)).symm
    show (readBy front (cs.length - rest.length) cs).map (es ++ ·) = (readBy front 0 rest).map _
    rw [Grammar.readBy_eq_drop, hrest]

/-- Blanks are passed over. -/
theorem readBy_skipBlank (front : List Char → Except Fault (Condition × List Char))
    (cs : List Char) : readBy front 0 (skipBlank cs) = readBy front 0 cs := by
  induction cs with
  | nil => rfl
  | cons c cs ih =>
    by_cases hc : isBlank c = true
    · have hd : skipBlank (c :: cs) = skipBlank cs := by
        simp only [skipBlank, List.dropWhile_cons, hc, ↓reduceIte]
      rw [hd, ih]
      simp only [readBy, hc, ↓reduceIte]
    · rw [skipBlank_eq_self fun d hd => by
        rw [← Option.some.inj hd]; exact Bool.eq_false_iff.mpr hc]

theorem readBy_blanks (front : List Char → Except Fault (Condition × List Char)) {gap : List Char}
    (hgap : AllBlank gap) (cs : List Char) : readBy front 0 (gap ++ cs) = readBy front 0 cs := by
  have hskip : skipBlank (gap ++ cs) = skipBlank cs := List.dropWhile_append_of_pos hgap
  rw [← readBy_skipBlank, hskip, readBy_skipBlank]

/-- **A text, front by front**: what holds of blanks and of a front at fault, and of a front that is
    read if it holds of what that leaves, holds of every text. -/
theorem Onward.induction (h : Onward front) {motive : List Char → Prop}
    (blank : ∀ {gap}, AllBlank gap → motive gap)
    (fault : ∀ {gap c ds x}, AllBlank gap → isBlank c = false →
      front (c :: ds) = .error x → motive (gap ++ c :: ds))
    (step : ∀ {gap c ds es rest}, AllBlank gap → isBlank c = false →
      front (c :: ds) = .ok (es, rest) → motive rest → motive (gap ++ c :: ds))
    (cs : List Char) : motive cs := by
  induction hn : cs.length using Nat.strongRecOn generalizing cs with
  | ind n ih =>
    subst hn
    have hgap : AllBlank (cs.takeWhile isBlank) := fun c hc =>
      List.all_eq_true.mp List.all_takeWhile c hc
    have hcs : cs.takeWhile isBlank ++ skipBlank cs = cs := List.takeWhile_append_dropWhile
    cases hs : skipBlank cs with
    | nil =>
      rw [hs, List.append_nil] at hcs
      exact blank (hcs ▸ hgap)
    | cons c ds =>
      have hc := isBlank_of_skipBlank hs
      rw [hs] at hcs
      rw [← hcs]
      cases hf : front (c :: ds) with
      | error x => exact fault hgap hc hf
      | ok read =>
        have hlt : read.2.length < cs.length := calc
          read.2.length < (c :: ds).length := Nat.lt_succ_of_le (h _ _ _ _ hc hf).length_le
          _ ≤ cs.length := hs ▸ length_skipBlank_le cs
        exact step hgap hc hf (ih _ hlt _ rfl)

/-- **A reading, step by step**: what holds of blanks, and of a front with what is read behind it,
    holds of every text that is read. -/
theorem Onward.readBy_induction (h : Onward front) {motive : List Char → Condition → Prop}
    (blank : ∀ {gap}, AllBlank gap → motive gap [])
    (step : ∀ {gap c ds es rest more}, AllBlank gap → isBlank c = false →
      front (c :: ds) = .ok (es, rest) → motive rest more → motive (gap ++ c :: ds) (es ++ more))
    {cs : List Char} {es : Condition} (hread : readBy front 0 cs = .ok es) : motive cs es := by
  induction cs using h.induction generalizing es with
  | @blank gap hgap =>
    rw [← List.append_nil gap, readBy_blanks front hgap] at hread
    cases hread
    exact blank hgap
  | fault hgap hc hf =>
    rw [readBy_blanks front hgap, h.readBy_cons hc, hf] at hread
    cases hread
  | step hgap hc hf ih =>
    rw [readBy_blanks front hgap, h.readBy_cons hc, hf] at hread
    obtain ⟨more, hmore, rfl⟩ := map_eq_ok_iff.mp hread
    exact step hgap hc hf (ih hmore)

end Loop

/-! ## 4. The front of a text -/

/-- Whatever a try leaves, the rest of the piece was ended at some place that a lead reaches. -/
theorem exists_place_of_mem_firstTry {α : Type} {parts : List (List Char)}
    {finish : List Char → Option α} {cs : List Char} {x : α}
    (h : some x ∈ firstTry parts finish cs) :
    ∃ lead ds, lead ++ ds = cs ∧ (∀ c ∈ lead, parts.any (·.contains c) = true) ∧
      finish ds = some x := by
  induction cs with
  | nil => exact ⟨[], [], rfl, nofun, (List.mem_singleton.mp h).symm⟩
  | cons c cs ih =>
    have here : some x = finish (c :: cs) → ∃ lead ds, lead ++ ds = c :: cs ∧
        (∀ c ∈ lead, parts.any (·.contains c) = true) ∧ finish ds = some x :=
      fun hf => ⟨[], c :: cs, rfl, nofun, hf.symm⟩
    rw [firstTry] at h
    split at h
    · rename_i hc
      have later : some x ∈ firstTry parts finish cs → ∃ lead ds, lead ++ ds = c :: cs ∧
          (∀ c ∈ lead, parts.any (·.contains c) = true) ∧ finish ds = some x := by
        intro hl
        obtain ⟨lead, ds, hcs, hlead, hd⟩ := ih hl
        exact ⟨c :: lead, ds, congrArg (c :: ·) hcs, List.forall_mem_cons.mpr ⟨hc, hlead⟩, hd⟩
      rcases List.mem_cons.mp h with hh | hl
      · have hh := hh.symm
        simp only [Option.orElse_eq_orElse, Option.orElse_eq_or, Option.or_eq_some_iff] at hh
        rcases hh with hp | ⟨-, hf⟩
        · obtain ⟨part, -, hp⟩ := List.exists_of_findSome?_eq_some hp
          split at hp
          · exact later (List.mem_of_getElem? (Option.join_eq_some_iff.mp hp))
          · cases hp
        · exact here hf.symm
      · exact later hl
    · exact here (List.mem_singleton.mp h)

/-- A piece was ended at a place that its lead reaches. -/
theorem exists_place_of_piece {parts : List (List Char)} {finish : List Char → Option Tail}
    {cs : List Char} {piece : Piece} (h : Piece.read? parts finish cs = some piece) :
    ∃ ds, piece.lead ++ ds = cs ∧ (∀ c ∈ piece.lead, parts.any (·.contains c) = true) ∧
      finish ds = some piece.tail := by
  obtain ⟨⟨ds, tail⟩, hd, he⟩ := Option.map_eq_some_iff.mp h
  cases he
  have hm := List.mem_of_head? (Option.join_eq_some_iff.mp hd)
  obtain ⟨lead, es, rfl, hlead, he⟩ := exists_place_of_mem_firstTry hm
  obtain ⟨t, ht, he⟩ := Option.map_eq_some_iff.mp he
  cases he
  have htake : (lead ++ ds).take ((lead ++ ds).length - ds.length) = lead :=
    List.take_left' (by rw [List.length_append, Nat.add_sub_cancel])
  refine ⟨ds, congrArg (· ++ ds) htake, fun c hc => hlead c ?_, ht⟩
  rwa [← htake]

/-- The text of a piece is its lead, and what stands behind it. -/
theorem tailOf_piece {parts : List (List Char)} {finish : List Char → Option Tail}
    {cs : List Char} {piece : Piece}
    (hf : ∀ ds tail, finish ds = some tail → TailOf ds tail)
    (h : Piece.read? parts finish cs = some piece) :
    ∃ ds, piece.lead ++ ds = cs ∧ TailOf ds piece.tail := by
  obtain ⟨ds, hcs, -, htail⟩ := exists_place_of_piece h
  exact ⟨ds, hcs, hf ds piece.tail htail⟩

namespace Grammar

/-- **The text of a piece** is its lead, its lexeme, its closing brackets and what is left, which is
    at a gap. -/
theorem chars_of_piece {g : Grammar} {cs : List Char} {piece : Piece}
    (h : Piece.read? g.leadParts pieceTail cs = some piece) :
    piece.lead ++ piece.tail.chars = cs ∧ AtGap piece.tail.rest := by
  obtain ⟨ds, hcs, htail, hg⟩ := tailOf_piece (fun ds tail => tailOf_pieceTail) h
  exact ⟨htail.symm ▸ hcs, hg⟩

/-- **What is left behind the front** is an end of the text, at a gap. -/
theorem rest_of_readFront {g : Grammar} {cs rest : List Char} {es : Condition}
    (h : g.readFront cs = .ok (es, rest)) : rest <:+ cs ∧ AtGap rest := by
  unfold readFront at h
  split at h
  · obtain ⟨e, -, he⟩ := map_eq_ok_iff.mp h
    cases he
    exact ⟨List.dropWhile_suffix _, atGap_afterChunk cs⟩
  · cases hp : Piece.read? g.leadParts pieceTail cs with
    | none =>
      rw [hp] at h
      cases h
    | some piece =>
      rw [hp] at h
      obtain ⟨elements, -, he⟩ := map_eq_ok_iff.mp h
      cases he
      obtain ⟨hcs, hg⟩ := chars_of_piece hp
      have hrest : piece.tail.rest <:+ piece.tail.chars := TailOf.rest_suffix ⟨rfl, hg⟩
      exact ⟨hcs ▸ hrest.trans (List.suffix_append _ _), hg⟩

/-! ## 5. The two steps of reading -/

theorem onward_readFront (g : Grammar) : Onward g.readFront := by
  intro c cs rest es hc h
  obtain ⟨hs, hg⟩ := rest_of_readFront h
  rcases List.suffix_cons_iff.mp hs with rfl | hs
  · exact absurd (length_lt_of_suffix hc hs hg) (Nat.lt_irrefl _)
  · exact hs

theorem readFrom_cons {g : Grammar} {c : Char} (hc : isBlank c = false) (cs : List Char) :
    g.readFrom 0 (c :: cs)
      = (g.readFront (c :: cs)).bind fun (es, rest) => (g.readFrom 0 rest).map (es ++ ·) :=
  (onward_readFront g).readBy_cons hc cs

/-- So a text is read if its front is, and what that leaves. -/
theorem readFrom_cons_eq_ok_iff {g : Grammar} {c : Char} (hc : isBlank c = false) {cs : List Char}
    {es : Condition} : g.readFrom 0 (c :: cs) = .ok es ↔ ∃ front left more,
      g.readFront (c :: cs) = .ok (front, left) ∧ g.readFrom 0 left = .ok more ∧
        front ++ more = es := by
  rw [readFrom_cons hc, bind_eq_ok_iff]
  constructor
  · rintro ⟨⟨front, left⟩, hfront, hmap⟩
    obtain ⟨more, hmore, rfl⟩ := map_eq_ok_iff.mp hmap
    exact ⟨front, left, more, hfront, hmore, rfl⟩
  · rintro ⟨front, left, more, hfront, hmore, rfl⟩
    exact ⟨(front, left), hfront, map_eq_ok_iff.mpr ⟨more, hmore, rfl⟩⟩

theorem readFrom_skipBlank (g : Grammar) (cs : List Char) :
    g.readFrom 0 (skipBlank cs) = g.readFrom 0 cs := readBy_skipBlank g.readFront cs

theorem readFrom_blanks (g : Grammar) {gap : List Char} (hgap : AllBlank gap) (cs : List Char) :
    g.readFrom 0 (gap ++ cs) = g.readFrom 0 cs := readBy_blanks g.readFront hgap cs

theorem front_induction (g : Grammar) {motive : List Char → Prop}
    (blank : ∀ {gap}, AllBlank gap → motive gap)
    (fault : ∀ {gap c ds x}, AllBlank gap → isBlank c = false →
      g.readFront (c :: ds) = .error x → motive (gap ++ c :: ds))
    (front : ∀ {gap c ds es rest}, AllBlank gap → isBlank c = false →
      g.readFront (c :: ds) = .ok (es, rest) → motive rest → motive (gap ++ c :: ds))
    (cs : List Char) : motive cs := (onward_readFront g).induction blank fault front cs

/-- **A reading, step by step**: what holds of blanks, and of a front with what is read behind it,
    holds of every text that is read. -/
theorem readFrom_induction {g : Grammar} {motive : List Char → Condition → Prop}
    (blank : ∀ {gap}, AllBlank gap → motive gap [])
    (front : ∀ {gap c ds es rest more}, AllBlank gap → isBlank c = false →
      g.readFront (c :: ds) = .ok (es, rest) → AtGap rest → g.readFrom 0 rest = .ok more →
      motive rest more → motive (gap ++ c :: ds) (es ++ more))
    {cs : List Char} {es : Condition} (h : g.readFrom 0 cs = .ok es) : motive cs es := by
  induction cs using g.front_induction generalizing es with
  | @blank gap hgap =>
    rw [← List.append_nil gap, readFrom_blanks g hgap] at h
    cases h
    exact blank hgap
  | fault hgap hc hf =>
    rw [readFrom_blanks g hgap, readFrom_cons hc, hf] at h
    cases h
  | front hgap hc hf ih =>
    rw [readFrom_blanks g hgap] at h
    obtain ⟨es, rest, more, hf', hmore, rfl⟩ := (readFrom_cons_eq_ok_iff hc).mp h
    cases hf.symm.trans hf'
    exact front hgap hc hf (rest_of_readFront hf).2 hmore (ih hmore)

/-- **A fault is the fault of a front**, which stands at the start of the text or behind a blank. -/
theorem exists_front_of_error {g : Grammar} {cs : List Char} {x : Fault}
    (h : g.readFrom 0 cs = .error x) : ∃ before c ds, before ++ c :: ds = cs ∧ isBlank c = false ∧
      (∀ b, before.getLast? = some b → isBlank b = true) ∧ g.readFront (c :: ds) = .error x := by
  induction cs using g.front_induction with
  | @blank gap hgap =>
    rw [← List.append_nil gap, readFrom_blanks g hgap] at h
    cases h
  | @fault gap c ds y hgap hc hf =>
    rw [readFrom_blanks g hgap, readFrom_cons hc, hf] at h
    cases h
    exact ⟨gap, c, ds, rfl, hc, fun b hb => hgap b (List.mem_of_getLast? hb), hf⟩
  | @front gap c ds es rest hgap hc hf ih =>
    rw [readFrom_blanks g hgap, readFrom_cons hc, hf] at h
    obtain ⟨before, c', ds', hrest', hc', hblank, hx⟩ := ih (map_eq_error_iff.mp h)
    obtain ⟨⟨front, hfront⟩, hrest⟩ := rest_of_readFront hf
    -- the front behind the first one is not at the gap itself
    have hne : before ≠ [] := by
      rintro rfl
      rw [← hrest', List.nil_append, atGap_cons, hc'] at hrest
      cases hrest
    refine ⟨gap ++ front ++ before, c', ds', ?_, hc', ?_, hx⟩
    · rw [List.append_assoc, List.append_assoc, hrest', hfront]
    · intro b hb
      rw [List.getLast?_append_of_ne_nil _ hne] at hb
      exact hblank b hb

/-- Without a scanner a text is read front by front, by hand. -/
theorem grammar_elements (r : Registry) (cs : List Char) :
    r.grammar.elements cs = r.grammar.readFrom 0 cs := rfl

/-- A text that is read is read from its beginning. -/
theorem read_eq_ok_iff {g : Grammar} {text : String} {c : Condition} :
    g.read text = .ok c ↔ g.elements text.toList = .ok c ∧ c ≠ [] := by
  rw [read]
  cases g.elements text.toList with
  | error x =>
    constructor
    · intro h
      cases h
    · intro h
      cases h.1
  | ok es =>
    cases es with
    | nil =>
      constructor
      · intro h
        cases h
      · exact fun h => absurd (Except.ok.inj h.1).symm h.2
    | cons e es => exact ⟨fun h => ⟨h, Except.ok.inj h ▸ List.cons_ne_nil e es⟩, And.left⟩

/-- A text that is one front is read as that front. -/
theorem read_of_front {r : Registry} {text : String} {c : Char} {cs : List Char}
    (hcs : text.toList = c :: cs) (hc : isBlank c = false) {es : Condition} (hne : es ≠ [])
    (h : r.grammar.readFront (c :: cs) = .ok (es, [])) : r.grammar.read text = .ok es := by
  refine read_eq_ok_iff.mpr ⟨?_, hne⟩
  rw [grammar_elements, hcs, readFrom_cons hc, h]
  show Except.ok (es ++ []) = _
  rw [List.append_nil]

/-- A text whose front is at fault is at fault. -/
theorem read_of_front_fault {r : Registry} {text : String} {c : Char} {cs : List Char}
    (hcs : text.toList = c :: cs) (hc : isBlank c = false) {x : Fault}
    (h : r.grammar.readFront (c :: cs) = .error x) : r.grammar.read text = .error x := by
  have helements : r.grammar.elements text.toList = .error x := by
    rw [grammar_elements, hcs, readFrom_cons hc, h]
    rfl
  rw [read, helements]
  rfl

end Grammar

end Verdict
