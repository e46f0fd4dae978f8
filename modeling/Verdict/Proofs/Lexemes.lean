import Verdict.Proofs.Locating

/-!
# Lexemes and where they stand

Reading turns a text into elements and forgets where they were. This file keeps the places: the
LEXEMES of a text are the operators and operands it is read from, each with the place where it begins,
up to the front where the reading is at fault, if it is.

What lies between two lexemes is made of blanks, brackets and negations, and each front leaves a text
that begins with a gap. These two facts are the steps of `Laid`, which says for a text behind another
one what its lexemes are; all else about places is read off `Laid` by induction.

* `exists_laid` -- the lexemes of every text are laid out so, for the default operators.
* `bodies_of_parse` -- the literals among them are the literals of the condition that is read.
* `Laid.pairwise`, `Laid.exists_separated` -- one lexeme is behind the other, each by itself.
* `Laid.stopped` -- the fault of a reading is behind all of them.
* `Laid.cases_of_name` -- **a name that stands by itself is a lexeme, or strictly inside a literal.**
-/

namespace Verdict

open Text

/-! ## 1. Lexemes and their places -/

/-- One stretch lies strictly inside another. -/
def Span.Within (inner outer : Span) : Prop := outer.start < inner.start ∧ inner.stop < outer.stop

instance (inner outer : Span) : Decidable (inner.Within outer) :=
  inferInstanceAs (Decidable (outer.start < inner.start ∧ inner.stop < outer.stop))

/-- A lexeme of a source text and the place where it begins. -/
structure Lexeme where
  place : Nat
  chars : List Char
deriving DecidableEq

namespace Lexeme

/-- The stretch of the source that is the lexeme. -/
def span (l : Lexeme) : Span := ⟨l.place, l.place + l.chars.length⟩

/-- The text between the quotes, if the lexeme has them. -/
def body? (l : Lexeme) : Option String :=
  (unquote? l.chars).map fun found => String.ofList found.2

def isLiteral (l : Lexeme) : Bool := l.body?.isSome

end Lexeme

namespace Grammar

/-- The lexeme at the front of a text, an operator by itself or the operand of a piece, with its
    place there; none if the front has brackets and negations alone. -/
def lexemeAt? (g : Grammar) (cs : List Char) : Option Lexeme :=
  if g.isOperatorChunk (chunk cs) then some ⟨0, chunk cs⟩
  else
    (Piece.read? g.leadParts pieceTail cs).bind fun piece =>
      piece.tail.lexeme.map fun lexeme => ⟨piece.lead.length, lexeme⟩

/-- The lexemes that a reading comes by behind the first `skip` characters, up to a front at fault;
    places are counted from `start`. -/
def lexemesFrom (g : Grammar) (start skip : Nat) : List Char → List Lexeme
  | [] => []
  | c :: cs =>
    match skip with
    | skip + 1 => lexemesFrom g (start + 1) skip cs
    | 0 =>
      if isBlank c then lexemesFrom g (start + 1) 0 cs
      else
        match g.readFront (c :: cs) with
        | .error _ => []
        | .ok (_, rest) =>
          let here := (g.lexemeAt? (c :: cs)).map fun l => { l with place := start + l.place }
          here.toList ++ lexemesFrom g (start + 1) (cs.length - rest.length) cs

/-- **The lexemes of a source text**, up to a front at fault. -/
def lexemes (g : Grammar) (source : String) : List Lexeme := g.lexemesFrom 0 0 source.toList

end Grammar

/-! ## 2. How lexemes are laid out -/

namespace Lexing

/-- What a lexeme can be: a text between quotes, an operator by symbols, or a word that holds nothing
    a lexeme may stand beside. -/
inductive Kind : List Char → Prop
  | quoted {q : Char} (body : List Char) (hq : isQuote q = true) : Kind (q :: body ++ [q])
  | symbols {w : List Char} (hne : w ≠ []) (hw : ∀ c ∈ w, isOperatorChar c = true) : Kind w
  | word {w : List Char} (hne : w ≠ []) (hw : ∀ c ∈ w, separates c = false) : Kind w

/-- Where a reading stops: what stands before the front at fault, the text from there on, the fault. -/
structure Stop where
  before : List Char
  front : List Char
  fault : Fault

/-- **How lexemes are laid out**: what stands before a text, the text, its lexemes, and where the
    reading stops. Between lexemes there are characters that a lexeme may stand beside, and behind each
    front there is a gap. -/
inductive Laid [RegexLibrary] : List Char → List Char → List Lexeme → Option Stop → Prop
  | blank {before gap : List Char} (hgap : ∀ c ∈ gap, separates c = true) : Laid before gap [] none
  | fault {before gap ds : List Char} {c : Char} {x : Fault} (hgap : ∀ c ∈ gap, separates c = true)
      (hc : isBlank c = false) (h : Grammar.default.readFront (c :: ds) = .error x) :
      Laid before (gap ++ c :: ds) [] (some ⟨before ++ gap, c :: ds, x⟩)
  | marks {before pre rest : List Char} {ls : List Lexeme} {stop : Option Stop}
      (hpre : ∀ c ∈ pre, separates c = true) (hrest : AtGap rest)
      (hmore : Laid (before ++ pre) rest ls stop) : Laid before (pre ++ rest) ls stop
  | lexeme {before pre w post rest : List Char} {ls : List Lexeme} {stop : Option Stop}
      (hpre : ∀ c ∈ pre, separates c = true) (hw : Kind w) (hpost : ∀ c ∈ post, separates c = true)
      (hrest : AtGap rest) (hmore : Laid (before ++ (pre ++ (w ++ post))) rest ls stop) :
      Laid before (pre ++ (w ++ (post ++ rest))) (⟨before.length + pre.length, w⟩ :: ls) stop

/-- A lexeme that a piece can have is a text between quotes or a word. -/
theorem kind_of_pieceTail {cs : List Char} {tail : Tail} {w : List Char}
    (h : pieceTail cs = some tail) (hw : tail.lexeme = some w) : Kind w := by
  have hform : ∀ form, (∀ w, form w = true → isLiteralWord w = true ∨ isPlainName w = true) →
      wordTail form cs = some tail → Kind w := by
    intro form hform ht
    simp only [wordTail] at ht
    split at ht
    · rename_i hword
      obtain ⟨_, -, rfl⟩ := Option.map_eq_some_iff.mp ht
      cases hw
      obtain ⟨d, hd, -⟩ := exists_isAlphanum_of_form (hform _ hword)
      exact .word (List.ne_nil_of_mem hd) fun c hc => separates_of_form (hform _ hword) hc
    · cases ht
  have hliteral : ∀ q ds, isQuote q = true → literalTail q ds = some tail → Kind w := by
    intro q ds hq ht
    obtain ⟨body, hbody⟩ := exists_body_of_literalTail ht
    rw [hw] at hbody
    cases hbody
    exact .quoted body hq
  simp only [pieceTail, Option.orElse_eq_orElse, Option.orElse_eq_or, Option.or_eq_some_iff] at h
  rcases h with h | ⟨-, h | ⟨-, h | ⟨-, h⟩⟩⟩
  · obtain ⟨q, ds, -, rfl | rfl, ht⟩ := exists_literalTail h
    · exact hliteral _ ds (by decide) ht
    · exact hliteral _ ds (by decide) ht
  · exact hform _ (fun _ => .inl) h
  · exact hform _ (fun _ => .inr) h
  · obtain ⟨_, -, rfl⟩ := Option.map_eq_some_iff.mp h
    cases hw

theorem not_of_isOperatorChar {c : Char} (h : isOperatorChar c = true) :
    isBlank c = false ∧ isQuote c = false := by
  rw [isOperatorChar, List.contains_iff_mem] at h
  simp only [List.mem_cons, List.not_mem_nil, or_false] at h
  rcases h with rfl | rfl | rfl | rfl | rfl | rfl | rfl <;> decide

/-- An operator by itself is made of symbols, or a word. -/
theorem cases_of_isOperatorChunk [RegexLibrary] {w : List Char}
    (h : Grammar.default.isOperatorChunk w = true) : w ≠ [] ∧ ((∀ c ∈ w, isOperatorChar c = true) ∨
      ∀ c ∈ w, separates c = false ∧ isQuote c = false) := by
  rw [default_isOperatorChunk, Bool.or_eq_true, Bool.and_eq_true, Bool.not_eq_true',
    List.isEmpty_eq_false_iff] at h
  rcases h with ⟨hne, hall⟩ | hword
  · exact ⟨hne, .inl (List.all_eq_true.mp hall)⟩
  · obtain ⟨operator, hf⟩ := Option.isSome_iff_exists.mp hword
    obtain ⟨found, hfind, -⟩ := Option.map_eq_some_iff.mp hf
    have hw : found.name.chars = w := by simpa only [beq_iff_eq] using List.find?_some hfind
    have hmem : w ∈ wordOperators.map (·.name.chars) :=
      hw ▸ List.mem_map_of_mem (List.mem_of_find?_eq_some hfind)
    rw [chars_wordOperators] at hmem
    have hwords : ∀ w ∈ ["isIn".toList, "contains".toList, "hasPrefix".toList, "hasSuffix".toList,
        "matches".toList], w ≠ [] ∧ w.all (fun c => !separates c && !isQuote c) = true := by decide
    obtain ⟨hne, hall⟩ := hwords w hmem
    refine ⟨hne, .inr fun c hc => ?_⟩
    have hboth := List.all_eq_true.mp hall c hc
    rwa [Bool.and_eq_true, Bool.not_eq_true', Bool.not_eq_true'] at hboth

theorem kind_of_isOperatorChunk [RegexLibrary] {w : List Char}
    (h : Grammar.default.isOperatorChunk w = true) : Kind w := by
  obtain ⟨hne, hall | hall⟩ := cases_of_isOperatorChunk h
  · exact .symbols hne hall
  · exact .word hne fun c hc => (hall c hc).1

theorem isQuote_of_isOperatorChunk [RegexLibrary] {w : List Char}
    (h : Grammar.default.isOperatorChunk w = true) {c : Char} (hc : c ∈ w) : isQuote c = false := by
  obtain ⟨-, hall | hall⟩ := cases_of_isOperatorChunk h
  · exact (not_of_isOperatorChar (hall c hc)).2
  · exact (hall c hc).2

theorem separates_of_mem_lead [RegexLibrary] (cs : List Char) :
    ∀ c ∈ cs.takeWhile Grammar.default.isLead, separates c = true := by
  intro c hc
  have hlead := List.all_eq_true.mp List.all_takeWhile c hc
  rcases default_plain.eq_of_isLead hlead with rfl | ⟨rfl, -⟩
  · decide
  · decide

theorem separates_of_mem_closings (n : Nat) : ∀ c ∈ List.replicate n ')', separates c = true := by
  intro c hc
  rw [List.eq_of_mem_replicate hc]
  decide

/-- **The front of a text**: what a lexeme may stand beside, and a lexeme or none among it. -/
theorem front_cases [RegexLibrary] {c : Char} {ds rest : List Char} {es : Condition}
    (h : Grammar.default.readFront (c :: ds) = .ok (es, rest)) : AtGap rest ∧
      ((Grammar.default.lexemeAt? (c :: ds) = none ∧ ∃ pre, pre ++ rest = c :: ds ∧
          ∀ d ∈ pre, separates d = true) ∨
        ∃ pre w post, pre ++ (w ++ (post ++ rest)) = c :: ds ∧ (∀ d ∈ pre, separates d = true) ∧
          Kind w ∧ (∀ d ∈ post, separates d = true) ∧
          Grammar.default.lexemeAt? (c :: ds) = some ⟨pre.length, w⟩) := by
  refine ⟨(Grammar.rest_of_readFront h).2, ?_⟩
  rw [Grammar.readFront] at h
  rw [Grammar.lexemeAt?]
  split at h
  · rename_i hop
    obtain ⟨e, -, he⟩ := map_eq_ok_iff.mp h
    cases he
    rw [if_pos hop]
    refine .inr ⟨[], chunk (c :: ds), [], chunk_append_afterChunk _, List.forall_mem_nil _,
      kind_of_isOperatorChunk hop, List.forall_mem_nil _, rfl⟩
  · rename_i hop
    rw [if_neg hop]
    cases hp : Piece.read? Grammar.default.leadParts
        pieceTail (c :: ds) with
    | none =>
      rw [hp] at h
      cases h
    | some piece =>
      rw [hp] at h
      obtain ⟨elements, -, hfront⟩ := map_eq_ok_iff.mp h
      cases hfront
      obtain ⟨hcs, -⟩ := Grammar.chars_of_piece hp
      rw [default_plain.piece_read?] at hp
      obtain ⟨tail, hfinish, rfl⟩ := Option.map_eq_some_iff.mp hp
      have hpre := separates_of_mem_lead (c :: ds)
      have hpost := separates_of_mem_closings tail.closing
      rw [Option.bind_some]
      cases hw : tail.lexeme with
      | none =>
        rw [Tail.chars, hw] at hcs
        refine .inl ⟨rfl, (c :: ds).takeWhile Grammar.default.isLead ++
          List.replicate tail.closing ')', ?_, ?_⟩
        · exact (List.append_assoc _ _ _).trans hcs
        · exact fun d hd => (List.mem_append.mp hd).elim (hpre d) (hpost d)
      | some w =>
        rw [Tail.chars, hw] at hcs
        exact .inr ⟨_, w, _, hcs, hpre, kind_of_pieceTail hfinish hw, hpost, rfl⟩

end Lexing

namespace Grammar

variable {g : Grammar}

/-- Passing over characters is coming by the lexemes behind them. -/
theorem lexemesFrom_eq_drop (start skip : Nat) (cs : List Char) :
    g.lexemesFrom start skip cs = g.lexemesFrom (start + skip) 0 (cs.drop skip) := by
  induction cs generalizing start skip with
  | nil => cases skip <;> rfl
  | cons c cs ih =>
    cases skip with
    | zero => rfl
    | succ skip =>
      rw [List.drop_succ_cons, lexemesFrom, ih, Nat.add_assoc, Nat.add_comm 1 skip]

theorem lexemesFrom_blanks (start : Nat) {gap : List Char} (hgap : AllBlank gap) (cs : List Char) :
    g.lexemesFrom start 0 (gap ++ cs) = g.lexemesFrom (start + gap.length) 0 cs := by
  induction gap generalizing start with
  | nil => rfl
  | cons b gap ih =>
    have hb : isBlank b = true := hgap b List.mem_cons_self
    rw [List.cons_append, lexemesFrom, if_pos hb, ih _ fun c hc => hgap c (List.mem_cons_of_mem _ hc),
      List.length_cons, Nat.add_assoc, Nat.add_comm 1]

theorem lexemesFrom_fault {c : Char} {ds : List Char} {x : Fault} (hc : isBlank c = false)
    (h : g.readFront (c :: ds) = .error x) (start : Nat) : g.lexemesFrom start 0 (c :: ds) = [] := by
  rw [lexemesFrom, if_neg (Bool.eq_false_iff.mp hc), h]

/-- The lexeme of the front, and those behind it. -/
theorem lexemesFrom_front {c : Char} {ds front rest : List Char} {es : Condition}
    (hc : isBlank c = false) (h : g.readFront (c :: ds) = .ok (es, rest))
    (hcs : front ++ rest = c :: ds) (start : Nat) :
    g.lexemesFrom start 0 (c :: ds)
      = ((g.lexemeAt? (c :: ds)).map fun l => { l with place := start + l.place }).toList
        ++ g.lexemesFrom (start + front.length) 0 rest := by
  obtain ⟨hs, hg⟩ := rest_of_readFront h
  have hlt := length_lt_of_suffix hc hs hg
  rw [lexemesFrom, if_neg (Bool.eq_false_iff.mp hc), h]
  cases front with
  | nil =>
    rw [← hcs, List.nil_append] at hlt
    exact absurd hlt (Nat.lt_irrefl _)
  | cons d front =>
    rw [List.cons_append] at hcs
    obtain ⟨rfl, rfl⟩ := List.cons.inj hcs
    have hskip : (front ++ rest).length - rest.length = front.length := by
      rw [List.length_append, Nat.add_sub_cancel]
    simp only [hskip]
    rw [lexemesFrom_eq_drop, List.drop_left, List.length_cons, Nat.add_assoc, Nat.add_comm 1]

end Grammar

namespace Lexing

/-- **The lexemes of a text are laid out so**, and the reading stops where it is at fault. -/
theorem exists_laid [RegexLibrary] (before cs : List Char) : ∃ stop,
    Laid before cs (Grammar.default.lexemesFrom before.length 0 cs) stop ∧
      ∀ x, Grammar.default.readFrom 0 cs = .error x ↔ ∃ s, stop = some s ∧ s.fault = x := by
  induction cs using Grammar.default.front_induction generalizing before with
  | @blank gap hgap =>
    rw [← List.append_nil gap, Grammar.lexemesFrom_blanks _ hgap, Grammar.readFrom_blanks _ hgap,
      List.append_nil]
    refine ⟨none, .blank fun c hc => separates_of_isBlank (hgap c hc), fun x => ⟨nofun, fun h => ?_⟩⟩
    obtain ⟨s, hnone, -⟩ := h
    cases hnone
  | fault hgap hc hf =>
    rw [Grammar.lexemesFrom_blanks _ hgap, Grammar.lexemesFrom_fault hc hf,
      Grammar.readFrom_blanks _ hgap, Grammar.readFrom_cons hc, hf]
    refine ⟨_, .fault (fun c hc => separates_of_isBlank (hgap c hc)) hc hf, fun y => ⟨?_, ?_⟩⟩
    · intro h
      cases h
      exact ⟨_, rfl, rfl⟩
    · intro h
      obtain ⟨s, hs, rfl⟩ := h
      cases hs
      rfl
  | @front gap c ds es rest hgap hc hf ih =>
    have hread : ∀ x, Grammar.default.readFrom 0 (gap ++ c :: ds) = .error x ↔
        Grammar.default.readFrom 0 rest = .error x := by
      intro x
      rw [Grammar.readFrom_blanks _ hgap, Grammar.readFrom_cons hc, hf]
      exact map_eq_error_iff
    have hall : ∀ {pre}, (∀ d ∈ pre, separates d = true) → ∀ d ∈ gap ++ pre, separates d = true :=
      fun hpre d hd => (List.mem_append.mp hd).elim (fun hd => separates_of_isBlank (hgap d hd))
        (hpre d)
    simp only [hread]
    rw [Grammar.lexemesFrom_blanks _ hgap]
    obtain ⟨hrest, ⟨hnone, pre, hpre, hsep⟩ | ⟨pre, w, post, hfront, hpre, hw, hpost, hl⟩⟩ :=
      front_cases hf
    · obtain ⟨stop, hlaid, hstop⟩ := ih (before ++ (gap ++ pre))
      refine ⟨stop, ?_, hstop⟩
      rw [Grammar.lexemesFrom_front hc hf hpre, hnone, ← hpre, ← List.append_assoc, Nat.add_assoc]
      rw [List.length_append, List.length_append] at hlaid
      exact .marks (hall hsep) hrest hlaid
    · obtain ⟨stop, hlaid, hstop⟩ := ih (before ++ ((gap ++ pre) ++ (w ++ post)))
      refine ⟨stop, ?_, hstop⟩
      have hcut : (pre ++ (w ++ post)) ++ rest = c :: ds := by
        rw [← hfront, List.append_assoc, List.append_assoc]
      have hplace : before.length + gap.length + pre.length = before.length + (gap ++ pre).length := by
        rw [List.length_append, Nat.add_assoc]
      have hlen : (before ++ ((gap ++ pre) ++ (w ++ post))).length
          = before.length + gap.length + (pre ++ (w ++ post)).length := by
        simp only [List.length_append, Nat.add_assoc]
      rw [hlen] at hlaid
      rw [Grammar.lexemesFrom_front hc hf hcut, hl, ← hfront, ← List.append_assoc, Option.map_some,
        hplace]
      exact .lexeme (hall hpre) hw hpost hrest hlaid

end Lexing

/-! ## 3. The literals among them -/

/-- The text that an element stands for, if it is a literal with quotes. -/
def Element.body? : Element → Option String
  | .operand (.text body) => some body
  | _ => none

namespace Lexing

theorem body?_of_ofLexeme {isName : List Char → Bool} {w : List Char} {o : Operand}
    (h : Operand.ofLexeme isName w = .ok o) (place : Nat) :
    (Element.operand o).body? = (Lexeme.mk place w).body? := by
  rw [Lexeme.body?]
  have hread := Operand.classified isName w
  rw [h] at hread
  cases hread with
  | text hq => rw [hq]; rfl
  | number hq => rw [hq]; rfl
  | truth hq => rw [hq]; rfl
  | name hq => rw [hq]; rfl

/-- A chunk that is read as an operator is no literal, and no literal is read from it. -/
theorem body?_of_operator? [RegexLibrary] {w : List Char} {e : Element}
    (h : Grammar.default.operator? w = some e)
    (hw : Grammar.default.isOperatorChunk w = true) (place : Nat) :
    e.body? = (Lexeme.mk place w).body? := by
  have hbody : (Lexeme.mk place w).body? = none := by
    rw [Lexeme.body?, unquote?_of_head? fun c hc =>
      isQuote_of_isOperatorChunk hw (List.mem_of_mem_head? hc), Option.map_none]
  rw [hbody]
  simp only [Grammar.operator?, Option.orElse_eq_orElse, Option.orElse_eq_or, Option.or_eq_some_iff]
    at h
  rcases h with h | ⟨-, h | ⟨-, h⟩⟩
  · obtain ⟨_, -, rfl⟩ := Option.map_eq_some_iff.mp h
    rfl
  · obtain ⟨_, -, rfl⟩ := Option.map_eq_some_iff.mp h
    rfl
  · obtain ⟨_, -, rfl⟩ := Option.map_eq_some_iff.mp h
    rfl

/-- The literals of a piece behind its lead: its lexeme, if that is one. -/
theorem bodies_of_tail {tail : Tail} {es : Condition} (h : tail.elements = .ok es) (place : Nat) :
    es.filterMap Element.body?
      = (tail.lexeme.map (Lexeme.mk place)).toList.filterMap Lexeme.body? := by
  have hclosings : (List.replicate tail.closing (Element.bracket .closing)).filterMap
      Element.body? = [] :=
    List.filterMap_eq_nil_iff.mpr fun e he => List.eq_of_mem_replicate he ▸ rfl
  rw [Tail.elements] at h
  cases hw : tail.lexeme with
  | none =>
    rw [hw] at h
    cases h
    rw [hclosings]
    rfl
  | some w =>
    rw [hw] at h
    obtain ⟨o, ho, rfl⟩ := map_eq_ok_iff.mp h
    rw [Option.map_some, Option.toList_some, List.filterMap_cons, List.filterMap_cons, hclosings,
      body?_of_ofLexeme ho, List.filterMap_nil]

/-- **The literals of a front**: its lexeme, if that is one. -/
theorem bodies_of_front [RegexLibrary] {c : Char} {ds rest : List Char} {es : Condition}
    (h : Grammar.default.readFront (c :: ds) = .ok (es, rest)) :
    (Grammar.default.lexemeAt? (c :: ds)).toList.filterMap Lexeme.body?
      = es.filterMap Element.body? := by
  rw [Grammar.lexemeAt?]
  by_cases hop : Grammar.default.isOperatorChunk (chunk (c :: ds)) = true
  · rw [Grammar.readFront, if_pos hop] at h
    obtain ⟨e, he, hfront⟩ := map_eq_ok_iff.mp h
    cases hfront
    rw [if_pos hop]
    have hbody : e.body? = (Lexeme.mk 0 (chunk (c :: ds))).body? := by
      rw [Grammar.readOperator] at he
      split at he
      · rename_i hoperator
        cases he
        exact body?_of_operator? hoperator hop 0
      · obtain ⟨o, ho, rfl⟩ := map_eq_ok_iff.mp he
        exact body?_of_ofLexeme ho 0
    simp only [Option.toList_some, List.filterMap_cons, List.filterMap_nil, hbody]
  · rw [default_plain.readFront_of_piece (Bool.eq_false_iff.mpr hop)] at h
    rw [if_neg hop, default_plain.piece_read?]
    split at h
    · cases h
    · rename_i tail hfinish
      obtain ⟨elements, helements, hfront⟩ := map_eq_ok_iff.mp h
      cases hfront
      have hlead : ((c :: ds).takeWhile Grammar.default.isLead).filterMap
          (fun d => (leadElement d).body?) = [] := by
        refine List.filterMap_eq_nil_iff.mpr fun d _ => ?_
        rw [leadElement]
        split <;> rfl
      rw [hfinish, Option.map_some, Option.bind_some, List.filterMap_append, List.filterMap_map,
        Function.comp_def, hlead, List.nil_append]
      exact (bodies_of_tail helements _).symm

end Lexing

namespace Grammar

theorem bodies_of_readFrom [RegexLibrary] {cs : List Char} {es : Condition}
    (h : Grammar.default.readFrom 0 cs = .ok es) (start : Nat) :
    (Grammar.default.lexemesFrom start 0 cs).filterMap Lexeme.body?
      = es.filterMap Element.body? := by
  refine readFrom_induction (motive := fun cs es => ∀ start,
    (Grammar.default.lexemesFrom start 0 cs).filterMap Lexeme.body?
      = es.filterMap Element.body?) ?_ ?_ h start
  · intro gap hgap start
    rw [← List.append_nil gap, lexemesFrom_blanks _ hgap]
    rfl
  · intro gap c ds es rest more hgap hc hfront _ _ ih start
    obtain ⟨front, hcs⟩ := (rest_of_readFront hfront).1
    rw [lexemesFrom_blanks _ hgap, lexemesFrom_front hc hfront hcs, List.filterMap_append, ih,
      List.filterMap_append, ← Lexing.bodies_of_front hfront]
    congr 1
    cases Grammar.default.lexemeAt? (c :: ds) with
    | none => rfl
    | some l => rfl

end Grammar

/-- **The literals of a condition that is read are those among the lexemes**, in their order. -/
theorem bodies_of_parse [RegexLibrary] {source : String} {c : Condition}
    (h : parse source = .ok c) :
    (Grammar.default.lexemes source).filterMap Lexeme.body? = c.filterMap Element.body? :=
  Grammar.bodies_of_readFrom (Grammar.read_eq_ok_iff.mp h).1 0

namespace Lexing

/-! ## 4. Where lexemes stand -/

variable {before cs : List Char} {ls : List Lexeme} {stop : Option Stop}

/-- No lexeme begins where a gap does. -/
theorem Kind.not_atGap {w : List Char} (h : Kind w) (cs : List Char) : ¬ AtGap (w ++ cs) := by
  have hhead : ∀ {c : Char} {ds : List Char}, w = c :: ds → isBlank c = false →
      ¬ AtGap (w ++ cs) := by
    intro c ds hw hc hgap
    rw [hw, List.cons_append, atGap_cons, hc] at hgap
    cases hgap
  cases h with
  | @quoted q body hq =>
    refine hhead rfl ?_
    rcases eq_of_isQuote hq with rfl | rfl <;> decide
  | symbols hne hw =>
    obtain ⟨c, ds, rfl⟩ := List.exists_cons_of_ne_nil hne
    exact hhead rfl (not_of_isOperatorChar (hw c List.mem_cons_self)).1
  | word hne hw =>
    obtain ⟨c, ds, rfl⟩ := List.exists_cons_of_ne_nil hne
    refine hhead rfl (Bool.eq_false_iff.mpr fun hb => ?_)
    have hc := hw c List.mem_cons_self
    rw [separates_of_isBlank hb] at hc
    cases hc

/-- What a lexeme may stand behind: an end of the text, or a character that it may stand beside. -/
def Behind (before : List Char) : Prop := ∀ c, before.getLast? = some c → separates c = true

theorem Behind.append {pre : List Char} (hb : pre = [] → Behind before)
    (hpre : ∀ c ∈ pre, separates c = true) : Behind (before ++ pre) := by
  intro c hc
  rcases List.eq_nil_or_concat' pre with rfl | ⟨front, last, rfl⟩
  · rw [List.append_nil] at hc
    exact hb rfl c hc
  · rw [← List.append_assoc, List.getLast?_concat] at hc
    cases hc
    exact hpre _ (List.mem_append_right _ (List.mem_singleton_self _))

/-- What begins at no gap is behind a gap, or where something may begin. -/
theorem behind_append {pre cs : List Char} (hb : Behind before ∨ AtGap (pre ++ cs))
    (hpre : ∀ c ∈ pre, separates c = true) (hcs : ¬ AtGap cs) : Behind (before ++ pre) := by
  refine Behind.append (fun hnil => hb.resolve_right ?_) hpre
  rwa [hnil, List.nil_append]

theorem separates_head? {post rest : List Char} (hpost : ∀ c ∈ post, separates c = true)
    (hrest : AtGap rest) {c : Char} (hc : (post ++ rest).head? = some c) : separates c = true := by
  cases post with
  | nil => exact separates_of_isBlank (hrest c hc)
  | cons d post =>
    cases hc
    exact hpost _ List.mem_cons_self

theorem Laid.le_place [RegexLibrary] (h : Laid before cs ls stop) {l : Lexeme} (hl : l ∈ ls) :
    before.length ≤ l.place := by
  induction h with
  | blank => cases hl
  | fault => cases hl
  | marks _ _ _ ih =>
    have hle := ih hl
    rw [List.length_append] at hle
    omega
  | lexeme _ _ _ _ _ ih =>
    rcases List.mem_cons.mp hl with rfl | hl
    · exact Nat.le_add_right _ _
    · have hle := ih hl
      rw [List.length_append] at hle
      omega

/-- **Lexemes stand one behind the other.** -/
theorem Laid.pairwise [RegexLibrary] (h : Laid before cs ls stop) :
    ls.Pairwise fun l m => l.span.stop ≤ m.span.start := by
  induction h with
  | blank => exact .nil
  | fault => exact .nil
  | marks _ _ _ ih => exact ih
  | lexeme _ _ _ _ hmore ih =>
    refine .cons (fun m hm => ?_) ih
    have hle := hmore.le_place hm
    simp only [List.length_append] at hle
    simp only [Lexeme.span]
    omega

/-- **Where a lexeme stands**, it stands by itself. -/
theorem Laid.exists_separated [RegexLibrary] (h : Laid before cs ls stop)
    (hb : Behind before ∨ AtGap cs) {l : Lexeme} (hl : l ∈ ls) : ∃ front after, front ++ (l.chars ++ after) = before ++ cs ∧
      front.length = l.place ∧ Separated front after := by
  induction h with
  | blank => cases hl
  | fault => cases hl
  | marks _ hrest _ ih =>
    obtain ⟨front, after, hcs, hplace, hsep⟩ := ih (.inr hrest) hl
    exact ⟨front, after, by rw [hcs, List.append_assoc], hplace, hsep⟩
  | @lexeme before pre w post rest ls stop hpre hw hpost hrest _ ih =>
    rcases List.mem_cons.mp hl with rfl | hl
    · refine ⟨before ++ pre, post ++ rest, List.append_assoc _ _ _, List.length_append, ?_, ?_⟩
      · exact behind_append hb hpre (hw.not_atGap _)
      · exact fun c hc => separates_head? hpost hrest hc
    · obtain ⟨front, after, hcs, hplace, hsep⟩ := ih (.inr hrest) hl
      refine ⟨front, after, ?_, hplace, hsep⟩
      rw [hcs]
      simp only [List.append_assoc]

/-- **Where a reading stops**: behind all lexemes, at a front at fault. -/
theorem Laid.stopped [RegexLibrary] (h : Laid before cs ls stop) (hb : Behind before ∨ AtGap cs)
    {s : Stop}
    (hs : stop = some s) : s.before ++ s.front = before ++ cs ∧ before.length ≤ s.before.length ∧
      Behind s.before ∧ (∀ l ∈ ls, l.span.stop ≤ s.before.length) ∧
      ∃ c ds, s.front = c :: ds ∧ isBlank c = false ∧
        Grammar.default.readFront s.front = .error s.fault := by
  induction h with
  | blank => cases hs
  | @fault before gap ds c x hgap hc hx =>
    cases hs
    refine ⟨List.append_assoc _ _ _, by rw [List.length_append]; omega, ?_, nofun, c, ds, rfl, hc, hx⟩
    refine behind_append hb hgap fun hat => ?_
    rw [atGap_cons, hc] at hat
    cases hat
  | marks _ hrest _ ih =>
    obtain ⟨hcs, hle, hbehind, hls, hfront⟩ := ih (.inr hrest) hs
    rw [List.length_append] at hle
    exact ⟨by rw [hcs, List.append_assoc], by omega, hbehind, hls, hfront⟩
  | @lexeme before pre w post rest ls stop _ _ _ hrest _ ih =>
    obtain ⟨hcs, hle, hbehind, hls, hfront⟩ := ih (.inr hrest) hs
    simp only [List.length_append] at hle
    refine ⟨?_, by omega, hbehind, List.forall_mem_cons.mpr ⟨?_, hls⟩, hfront⟩
    · rw [hcs]
      simp only [List.append_assoc]
    · simp only [Lexeme.span]
      omega

/-! ## 5. Where a name stands by itself -/

/-- A word that shares no character with the front of a text stands behind that front. -/
theorem exists_behind_of_append {x y a w b : List Char} (hw : w ≠ []) (hx : ∀ c ∈ w, c ∉ x)
    (h : x ++ y = a ++ (w ++ b)) : ∃ a', a = x ++ a' ∧ y = a' ++ (w ++ b) := by
  rcases List.append_eq_append_iff.mp h with ⟨a', ha, hy⟩ | ⟨c', hc, hz⟩
  · exact ⟨a', ha, hy⟩
  · obtain ⟨d, ds, rfl⟩ := List.exists_cons_of_ne_nil hw
    cases c' with
    | nil =>
      rw [List.append_nil] at hc
      exact ⟨[], by rw [hc, List.append_nil], hz.symm⟩
    | cons e c' =>
      have hd : d = e := (List.cons.inj hz).1
      exact absurd (hc ▸ List.mem_append_right _ (hd ▸ List.mem_cons_self)) (hx d List.mem_cons_self)

/-- A word that does not reach over the end of the front of a text stands in it or behind it. -/
theorem cases_of_append {x y a w b : List Char} (hy : ∀ c, y.head? = some c → c ∉ w)
    (h : x ++ y = a ++ (w ++ b)) :
    (∃ a', a = x ++ a' ∧ y = a' ++ (w ++ b)) ∨ ∃ b', x = a ++ (w ++ b') ∧ b = b' ++ y := by
  rcases List.append_eq_append_iff.mp h with ⟨a', ha, hy'⟩ | ⟨c', hc, hz⟩
  · exact .inl ⟨a', ha, hy'⟩
  · rcases List.append_eq_append_iff.mp hz with ⟨m, rfl, hb⟩ | ⟨m, hm, hym⟩
    · exact .inr ⟨m, hc, hb⟩
    · cases m with
      | nil =>
        rw [List.append_nil] at hm
        exact .inr ⟨[], by rw [hc, hm, List.append_nil], hym.symm⟩
      | cons d m =>
        refine absurd ?_ (hy d (by rw [hym]; rfl))
        rw [hm]
        exact List.mem_append_right _ List.mem_cons_self

/-- A name has no quote and no character of an operator. -/
theorem char_of_isPlainName {w : List Char} (h : isPlainName w = true) {c : Char} (hc : c ∈ w) :
    isQuote c = false ∧ isOperatorChar c = false := by
  have hchar := char_of_form (.inr h) hc
  constructor
  · refine Bool.eq_false_iff.mpr fun hq => ?_
    rcases eq_of_isQuote hq with rfl | rfl
    · exact absurd hchar (by decide)
    · exact absurd hchar (by decide)
  · refine Bool.eq_false_iff.mpr fun ho => ?_
    rw [isOperatorChar, List.contains_iff_mem] at ho
    simp only [List.mem_cons, List.not_mem_nil, or_false] at ho
    rcases ho with rfl | rfl | rfl | rfl | rfl | rfl | rfl <;> exact absurd hchar (by decide)

theorem ne_nil_of_isPlainName {w : List Char} (h : isPlainName w = true) : w ≠ [] := by
  intro hnil
  rw [hnil] at h
  cases h

/-- **A name that stands by itself in a lexeme** is the lexeme, or strictly inside a literal. -/
theorem Kind.cases_of_name {w a v b : List Char} (h : Kind w) (hw : w = a ++ (v ++ b))
    (hv : isPlainName v = true) (ha : ∀ c, a.getLast? = some c → separates c = true)
    (hb : ∀ c, b.head? = some c → separates c = true) :
    (a = [] ∧ b = []) ∨ (a ≠ [] ∧ b ≠ [] ∧ (unquote? w).isSome = true) := by
  have hne := ne_nil_of_isPlainName hv
  have hmem : ∀ c ∈ v, c ∈ w := fun c hc =>
    hw ▸ List.mem_append_right _ (List.mem_append_left _ hc)
  cases h with
  | @quoted q body hq =>
    -- the quotes at both ends are none of the name's characters
    have hout : q ∉ v := fun hm => by
      rw [(char_of_isPlainName hv hm).1] at hq
      cases hq
    refine .inr ⟨fun hnil => hout ?_, fun hnil => hout ?_, by rw [unquote?_quoted hq]; rfl⟩
    · obtain ⟨c, ds, rfl⟩ := List.exists_cons_of_ne_nil hne
      rw [hnil] at hw
      exact (List.cons.inj hw).1 ▸ List.mem_cons_self
    · have hlast := congrArg List.getLast? hw
      rw [hnil, List.append_nil, List.getLast?_append_of_ne_nil _ hne, List.getLast?_concat] at hlast
      exact List.mem_of_getLast? hlast.symm
  | symbols _ hall =>
    obtain ⟨c, ds, rfl⟩ := List.exists_cons_of_ne_nil hne
    have hc := hall c (hmem c List.mem_cons_self)
    rw [(char_of_isPlainName hv List.mem_cons_self).2] at hc
    cases hc
  | word _ hall =>
    refine .inl ⟨?_, ?_⟩
    · rcases List.eq_nil_or_concat' a with rfl | ⟨front, last, rfl⟩
      · rfl
      · have hc := hall last (hw ▸ List.mem_append_left _
          (List.mem_append_right _ (List.mem_singleton_self _)))
        rw [ha last List.getLast?_concat] at hc
        cases hc
    · cases b with
      | nil => rfl
      | cons d b =>
        have hc := hall d (hw ▸ List.mem_append_right _
          (List.mem_append_right _ List.mem_cons_self))
        rw [hb d rfl] at hc
        cases hc

/-- **A name that stands by itself in a text** is a lexeme, or strictly inside a literal. -/
theorem Laid.cases_of_name [RegexLibrary] (h : Laid before cs ls stop) (hstop : stop = none)
    {v a b : List Char} (hv : isPlainName v = true) (hcs : cs = a ++ (v ++ b))
    (hsep : Separated (before ++ a) b) :
    ⟨before.length + a.length, v⟩ ∈ ls ∨ ∃ l ∈ ls, l.isLiteral = true ∧
      (Span.mk (before.length + a.length) (before.length + a.length + v.length)).Within l.span := by
  have hne := ne_nil_of_isPlainName hv
  have hout : ∀ {pre : List Char}, (∀ c ∈ pre, separates c = true) → ∀ c ∈ v, c ∉ pre := by
    intro pre hpre c hc hm
    have hs := separates_of_isPlainName hv hc
    rw [hpre c hm] at hs
    cases hs
  induction h generalizing a with
  | @blank before gap hgap =>
    rw [← List.append_nil gap] at hcs
    obtain ⟨a', -, hnil⟩ := exists_behind_of_append hne (hout hgap) hcs
    exact absurd (List.append_eq_nil_iff.mp (List.append_eq_nil_iff.mp hnil.symm).2).1 hne
  | fault => cases hstop
  | @marks before pre rest ls stop hpre hrest hmore ih =>
    obtain ⟨a', rfl, hrest'⟩ := exists_behind_of_append hne (hout hpre) hcs
    rw [← List.append_assoc] at hsep
    have hlen : (before ++ pre).length + a'.length = before.length + (pre ++ a').length := by
      simp only [List.length_append, Nat.add_assoc]
    rw [← hlen]
    exact ih hstop hrest' hsep
  | @lexeme before pre w post rest ls stop hpre hw hpost hrest hmore ih =>
    obtain ⟨a₁, rfl, hcut⟩ := exists_behind_of_append hne (hout hpre) hcs
    have hhead : ∀ c, (post ++ rest).head? = some c → c ∉ v := fun c hc hm => by
      have hs := separates_of_isPlainName hv hm
      rw [separates_head? hpost hrest hc] at hs
      cases hs
    rcases cases_of_append hhead hcut with ⟨a₂, rfl, hbehind⟩ | ⟨b', hword, rfl⟩
    · obtain ⟨a₃, rfl, hrest'⟩ := exists_behind_of_append hne (hout hpost) hbehind
      have hlen : (before ++ (pre ++ (w ++ post))).length + a₃.length
          = before.length + (pre ++ (w ++ (post ++ a₃))).length := by
        simp only [List.length_append, Nat.add_assoc]
      rw [← hlen]
      rcases ih hstop hrest' (by simpa only [List.append_assoc] using hsep) with hm | ⟨l, hl, hin⟩
      · exact .inl (List.mem_cons_of_mem _ hm)
      · exact .inr ⟨l, List.mem_cons_of_mem _ hl, hin⟩
    · have ha : ∀ c, a₁.getLast? = some c → separates c = true := fun c hc =>
        hsep.before c (by rw [← List.append_assoc, List.getLast?_append, hc]; rfl)
      have hb : ∀ c, b'.head? = some c → separates c = true := fun c hc =>
        hsep.after c (by rw [List.head?_append, hc]; rfl)
      rcases hw.cases_of_name hword hv ha hb with ⟨rfl, rfl⟩ | ⟨hne₁, hne₂, hliteral⟩
      · rw [List.nil_append, List.append_nil] at hword
        rw [List.append_nil, hword]
        exact .inl List.mem_cons_self
      · refine .inr ⟨_, List.mem_cons_self, Option.isSome_map.trans hliteral, ?_⟩
        have hpos₁ := List.length_pos_iff.mpr hne₁
        have hpos₂ := List.length_pos_iff.mpr hne₂
        have hlen := congrArg List.length hword
        simp only [List.length_append] at hlen
        simp only [Span.Within, Lexeme.span, List.length_append]
        omega

end Lexing

end Verdict
