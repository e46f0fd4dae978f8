import Verdict.Proofs.Appending
import Verdict.Proofs.FirstFault
import Verdict.Proofs.Replacing

/-!
# Texts put in brackets

A text with a truth value may be put in brackets, and the brackets behind a negation: `(a)` has the
truth value of `a`, and `!(a)` the other one. The brackets are glued to the text, so they become part
of its first and last pieces, or pieces of their own where the text has blanks at its ends. What was
read as an operand, a lead or a literal is read as the same behind them; only an operator by itself
is not. But a condition with a truth value neither begins nor ends with a comparison or a connective.
A negation by itself at the front, as in `! (a)`, becomes part of a lead.

A closing bracket without an opening one is a fault, however the text is made.

* `readFrom_opening`, `readFrom_not` -- what is read behind an opening bracket, and behind `!(`.
* `evaluate_bracketed`, `evaluate_overclosed` -- the condition in brackets, and with one too many.
* `parse_enclosed` -- **texts in brackets.**
-/

namespace Verdict

open Text

/-! ## 1. Ends of conditions -/

namespace Condition

/-- An element that a condition with a truth value can begin with. -/
def MayBegin : Element → Prop
  | .comparison _ | .connective _ | .bracket .closing => False
  | _ => True

/-- The first and the last element of a condition are such as a condition can begin and end with. -/
structure Closed (c : Condition) : Prop where
  first : ∃ e, c.head? = some e ∧ MayBegin e
  last : ∃ e, c.getLast? = some e ∧ e.isClosable = true

theorem Closed.append {c d : Condition} (hc : c.Closed) (more : Condition) (hd : d.Closed) :
    Closed (c ++ (more ++ d)) := by
  obtain ⟨e, he, hbegin⟩ := hc.first
  obtain ⟨e', he', hend⟩ := hd.last
  refine ⟨⟨e, ?_, hbegin⟩, ⟨e', ?_, hend⟩⟩
  · rw [List.head?_append, he]
    rfl
  · rw [List.getLast?_append, List.getLast?_append, he']
    rfl

theorem Item.closed {lookup : Lookup} {c : Condition} {v : Bool} (h : Item lookup c v) :
    c.Closed := by
  have closing : ∀ front : Condition, (front ++ [Element.bracket .closing]).getLast?
      = some (Element.bracket .closing) := fun _ => List.getLast?_concat
  cases h with
  | @bracket c _ h => exact ⟨⟨_, rfl, trivial⟩, ⟨_, closing (.bracket .opening :: c), rfl⟩⟩
  | @negatedBracket operator c _ h =>
    exact ⟨⟨_, rfl, trivial⟩,
      ⟨_, closing (.negation operator :: .bracket .opening :: c), rfl⟩⟩
  | negatedVariable operator h => exact ⟨⟨_, rfl, trivial⟩, ⟨_, rfl, rfl⟩⟩
  | single h => exact ⟨⟨_, rfl, trivial⟩, ⟨_, rfl, rfl⟩⟩
  | comparison h => exact ⟨⟨_, rfl, trivial⟩, ⟨_, rfl, rfl⟩⟩

theorem Chain.closed {lookup : Lookup} {c : Condition} {halves : List Half}
    (h : Chain lookup c halves) : c.Closed := by
  refine @Chain.rec lookup (fun _ _ _ => True) (fun c _ _ => c.Closed)
    ?bracket ?negatedBracket ?negatedVariable ?single ?comparison ?last ?join _ _ h
  case last => exact fun h _ => h.closed
  case join =>
    intro c d v halves hi operator _ _ ihs
    exact hi.closed.append [.connective operator] ihs
  all_goals intros; trivial

/-! ## 2. Conditions in brackets -/

theorem sentence_of_evaluate {lookup : Lookup} {c : Condition} {v : Bool}
    (h : c.evaluate lookup = .ok v) : Sentence lookup c v := by
  obtain ⟨ts, hts, hv⟩ := (evaluate_eq_ok_iff_tokens _ _ _).mp h
  exact sentence_of_tokens hts hv

theorem evaluate_of_item {lookup : Lookup} {c : Condition} {v : Bool} (h : Item lookup c v) :
    c.evaluate lookup = .ok v :=
  (evaluate_eq_ok_iff_tokens _ _ _).mpr (tokens_of_sentence ⟨_, .last h, orOfAnds_last v⟩)

/-- **A condition in brackets** keeps its truth value, and behind a negation it has the other one. -/
theorem evaluate_bracketed {lookup : Lookup} {c : Condition} {v : Bool}
    (h : c.evaluate lookup = .ok v) :
    Condition.evaluate lookup (.bracket .opening :: (c ++ [.bracket .closing])) = .ok v ∧
      ∀ operator, Condition.evaluate lookup
        (.negation operator :: .bracket .opening :: (c ++ [.bracket .closing])) = .ok (!v) := by
  obtain ⟨halves, hc, rfl⟩ := sentence_of_evaluate h
  exact ⟨evaluate_of_item (.bracket hc), fun operator =>
    evaluate_of_item (.negatedBracket operator hc)⟩

/-- **One closing bracket too many** is found when the rest has been taken. -/
theorem evaluate_overclosed {lookup : Lookup} {c : Condition} {v : Bool}
    (h : c.evaluate lookup = .ok v) :
    Condition.evaluate lookup (c ++ [.bracket .closing]) = .error .unbalancedBrackets := by
  obtain ⟨ts, halves, hf, ht, -, -⟩ := exists_takes_of_evaluate h
  obtain ⟨last, hend, hr⟩ := hf none [.bracket .closing] trivial (Folder.noComparison_cons nofun)
  have hrun := hr.append (.cons (.closing hend) (.nil _ _))
  have htokens : Condition.tokens lookup (c ++ [.bracket .closing]) = (ts ++ [.closing], none) :=
    (Folder.tokens_eq_iff_run _ (Folder.start _) _).mpr ⟨_, hrun, .inr trivial⟩
  have htaken := ht Reducer.start rfl (fun _ hd => absurd hd List.not_mem_nil) Reducer.joinable_nil
  rw [evaluate_of_tokens htokens, Reducer.pushAll_append htaken,
    Reducer.pushAll_cons_of_fault (Reducer.push_closing_of_outer_nil rfl)]
  rfl

end Condition

/-! ## 3. Leads put before a text -/

namespace Grammar

variable {g : Grammar}

/-- **A longer lead**: behind one more character of a lead a piece is read as it was. -/
theorem Plain.readFront_cons (hg : g.Plain) {c : Char} (hc : g.isLead c = true)
    {cs left : List Char} {es : Condition} (hop : g.isOperatorChunk (chunk (c :: cs)) = false)
    (hpiece : g.isOperatorChunk (chunk cs) = false) (h : g.readFront cs = .ok (es, left)) :
    g.readFront (c :: cs) = .ok (leadElement c :: es, left) := by
  rw [hg.readFront_of_piece hpiece] at h
  rw [hg.readFront_of_piece hop, List.dropWhile_cons_of_pos hc, List.takeWhile_cons_of_pos hc]
  cases hf : pieceTail (cs.dropWhile g.isLead) with
  | none =>
    rw [hf] at h
    cases h
  | some tail =>
    rw [hf] at h
    obtain ⟨behind, hbehind, he⟩ := map_eq_ok_iff.mp h
    cases he
    exact map_eq_ok_iff.mpr ⟨behind, hbehind, rfl⟩

/-- A lead by itself. -/
theorem Plain.readFront_lead (hg : g.Plain) {lead left : List Char}
    (hlead : ∀ c ∈ lead, g.isLead c = true) (hleft : AtGap left)
    (hop : g.isOperatorChunk (chunk (lead ++ left)) = false) :
    g.readFront (lead ++ left) = .ok (lead.map leadElement, left) := by
  have hcut := cut_append hlead fun c hc => Bool.eq_false_iff.mpr fun hl => by
    have hblank := hleft c hc
    rcases hg.eq_of_isLead hl with rfl | ⟨rfl, -⟩
    · exact absurd hblank (by decide)
    · exact absurd hblank (by decide)
  have hfinish : pieceTail left = some ⟨none, 0, left⟩ :=
    pieceTail_word (w := []) nofun nofun hleft 0
  rw [hg.readFront_of_piece hop, hcut.1, hcut.2, hfinish]
  show Except.ok (_ ++ [], left) = _
  rw [List.append_nil]

/-! ## 4. Brackets put around a text -/

/-- Behind an opening bracket nothing is read as an operator by itself. -/
theorem isOperatorChunk_opening (r : Registry) (cs : List Char) :
    r.grammar.isOperatorChunk (chunk ('(' :: cs)) = false := by
  rw [(chunk_cons_of_not_blank (by decide) cs).1]
  exact isOperatorChunk_of_foreign (foreign_of_head? rfl (by decide)
    ⟨'(', List.mem_cons_self, by decide⟩)

theorem isOperatorChunk_not (r : Registry) (cs : List Char) :
    r.grammar.isOperatorChunk (chunk ('!' :: '(' :: cs)) = false := by
  rw [(chunk_cons_of_not_blank (by decide) _).1, (chunk_cons_of_not_blank (by decide) _).1]
  exact isOperatorChunk_of_foreign (foreign_of_head? rfl (by decide)
    ⟨'(', List.mem_cons_of_mem _ List.mem_cons_self, by decide⟩)

/-- The only negation that stands by itself is `!`. -/
theorem eq_not_of_readOperator [RegexLibrary] {w : List Char} {operator : Negation}
    (h : Grammar.default.readOperator w = .ok (.negation operator)) :
    operator = .not ∧ w = ['!'] := by
  have hfound : Registry.default.negation? (String.ofList w) = some operator :=
    spells_of_readOperator h
  obtain ⟨hm, hname⟩ := OperatorSet.mem_of_find? hfound
  obtain rfl : operator = .not :=
    List.mem_singleton.mp (show operator ∈ [Negation.not] from hm)
  have hw := congrArg String.toList hname
  rw [String.toList_ofList] at hw
  exact ⟨rfl, hw.symm⟩

/-- The front of a text, behind an opening bracket. -/
theorem readFront_opening [RegexLibrary] {cs left : List Char} {es : Condition}
    (h : Grammar.default.readFront cs = .ok (es, left))
    (hfirst : ∀ e, es.head? = some e → Condition.MayBegin e) :
    Grammar.default.readFront ('(' :: cs) = .ok (.bracket .opening :: es, left) := by
  have hop := isOperatorChunk_opening Registry.default
  cases hchunk : Grammar.default.isOperatorChunk (chunk cs) with
  | false =>
    exact Lexing.default_plain.readFront_cons (isLead_opening _) (hop cs) hchunk h
  | true =>
    rw [readFront, if_pos hchunk] at h
    obtain ⟨e, he, hfront⟩ := map_eq_ok_iff.mp h
    cases hfront
    obtain ⟨name, hname⟩ := exists_name_of_readOperator (r := Registry.default) hchunk he
    -- of all operators only a negation may begin a condition
    cases e with
    | negation operator =>
      obtain ⟨rfl, hw⟩ := eq_not_of_readOperator he
      have hcs : cs = '!' :: afterChunk cs := by
        have happ := chunk_append_afterChunk cs
        rw [hw] at happ
        exact happ.symm
      have hlead : ∀ c ∈ ['(', '!'], Grammar.default.isLead c = true := by
        intro c hc
        rw [Lexing.default_isLead]
        rcases List.mem_pair.mp hc with rfl | rfl <;> rfl
      have hread := Lexing.default_plain.readFront_lead hlead (atGap_afterChunk cs)
        (hop ('!' :: afterChunk cs))
      rw [List.cons_append, List.cons_append, List.nil_append, ← hcs] at hread
      exact hread
    | bracket b => cases hname
    | operand o => cases hname
    | comparison operator => exact (hfirst _ rfl).elim
    | connective operator => exact (hfirst _ rfl).elim

/-- **What is read behind an opening bracket** is what was read, if that can begin a condition. -/
theorem readFrom_opening [RegexLibrary] {cs : List Char} {es : Condition}
    (h : Grammar.default.readFrom 0 cs = .ok es)
    (hfirst : ∀ e, es.head? = some e → Condition.MayBegin e) :
    Grammar.default.readFrom 0 ('(' :: cs) = .ok (.bracket .opening :: es) := by
  rw [readFrom_cons_eq_ok_iff (by decide)]
  by_cases hgap : AtGap cs
  · have hlead : ∀ c ∈ ['('], Grammar.default.isLead c = true := fun c hc => by
      rw [List.mem_singleton.mp hc]
      exact isLead_opening _
    exact ⟨[.bracket .opening], cs, es, Lexing.default_plain.readFront_lead hlead hgap
      (isOperatorChunk_opening Registry.default cs), h, rfl⟩
  · cases cs with
    | nil => exact absurd atGap_nil hgap
    | cons c ds =>
      have hc : isBlank c = false := Bool.eq_false_iff.mpr fun hb => hgap (atGap_cons.mpr hb)
      obtain ⟨front, left, more, hfront, hmore, rfl⟩ := (readFrom_cons_eq_ok_iff hc).mp h
      have hopened := readFront_opening hfront fun e he =>
        hfirst e (by rw [List.head?_append, he]; rfl)
      exact ⟨_, left, more, hopened, hmore, rfl⟩

/-- Behind `!` an opening bracket is read as it was. -/
theorem readFrom_not [RegexLibrary] {cs : List Char} {es : Condition}
    (h : Grammar.default.readFrom 0 ('(' :: cs) = .ok es) :
    Grammar.default.readFrom 0 ('!' :: '(' :: cs) = .ok (.negation .not :: es) := by
  obtain ⟨front, left, more, hfront, hmore, rfl⟩ := (readFrom_cons_eq_ok_iff (by decide)).mp h
  have hlead : Grammar.default.isLead '!' = true := by
    rw [Lexing.default_isLead]
    rfl
  have hnot := Lexing.default_plain.readFront_cons hlead (isOperatorChunk_not Registry.default cs)
    (isOperatorChunk_opening Registry.default cs) hfront
  exact (readFrom_cons_eq_ok_iff (by decide)).mpr ⟨_, left, more, hnot, hmore, rfl⟩

/-- **A closing bracket behind a text**: it becomes part of the last piece, or a piece. -/
theorem readFrom_closing [RegexLibrary] {cs : List Char} {es : Condition}
    (h : Grammar.default.readFrom 0 cs = .ok es)
    (hlast : ∀ e, es.getLast? = some e → e.isClosable = true) :
    Grammar.default.readFrom 0 (cs ++ [')']) = .ok (es ++ [.bracket .closing]) := by
  have hread := readFrom_following (r := Registry.default) (n := 1) atGap_nil h (.inl rfl)
    (.inr hlast)
  refine hread.trans ?_
  show Except.ok (_ ++ []) = _
  rw [List.append_nil]
  rfl

end Grammar

/-! ## 5. Texts in brackets -/

/-- **Texts in brackets**: where a text has a truth value, it has the same one in brackets, the other
    one in brackets behind a negation, and none with one closing bracket behind it. In each case what
    is read is what was read of the text, with the brackets. -/
theorem parse_enclosed [RegexLibrary] {text : String} {lookup : Lookup} {c : Condition} {v : Bool}
    (h : parse text = .ok c) (hv : c.evaluate lookup = .ok v) :
    (parse ("(" ++ text ++ ")") = .ok (.bracket .opening :: (c ++ [.bracket .closing])) ∧
      Condition.evaluate lookup (.bracket .opening :: (c ++ [.bracket .closing])) = .ok v) ∧
    (parse ("!(" ++ text ++ ")")
        = .ok (.negation .not :: .bracket .opening :: (c ++ [.bracket .closing])) ∧
      Condition.evaluate lookup
        (.negation .not :: .bracket .opening :: (c ++ [.bracket .closing])) = .ok (!v)) ∧
    parse (text ++ ")") = .ok (c ++ [.bracket .closing]) ∧
      Condition.evaluate lookup (c ++ [.bracket .closing]) = .error .unbalancedBrackets := by
  obtain ⟨hread, -⟩ := Grammar.read_eq_ok_iff.mp h
  obtain ⟨halves, hchain, -⟩ := Condition.sentence_of_evaluate hv
  obtain ⟨⟨first, hfirst, hbegin⟩, last, hlast, hend⟩ := hchain.closed
  have hclosing := Grammar.readFrom_closing hread fun e he =>
    Option.some.inj (hlast.symm.trans he) ▸ hend
  have hopening := Grammar.readFrom_opening hclosing fun e he => by
    rw [List.head?_append, hfirst] at he
    exact Option.some.inj he ▸ hbegin
  obtain ⟨hbracket, hnot⟩ := Condition.evaluate_bracketed hv
  refine ⟨⟨Grammar.read_eq_ok_iff.mpr ⟨?_, List.cons_ne_nil _ _⟩, hbracket⟩,
    ⟨Grammar.read_eq_ok_iff.mpr ⟨?_, List.cons_ne_nil _ _⟩, hnot .not⟩,
    Grammar.read_eq_ok_iff.mpr ⟨?_, List.append_ne_nil_of_right_ne_nil c (List.cons_ne_nil _ _)⟩,
    Condition.evaluate_overclosed hv⟩
  · rw [String.toList_append, String.toList_append]
    exact hopening
  · rw [String.toList_append, String.toList_append]
    exact Grammar.readFrom_not hopening
  · rw [String.toList_append]
    exact hclosing

/-- A text that begins with a negation by itself and ends with a blank. -/
theorem parse_enclosed_spaced :
    let lookup := (Lookup.empty.bind "on" "true").bind "name" "a b"
    let c : Condition := [.negation .not, .bracket .opening, .operand (.var "on"),
      .bracket .closing, .connective .or, .operand (.var "name"), .comparison .equal,
      .operand (.text "a b")]
    parse "! (on) || name == \"a b\" " = .ok c ∧ c.evaluate lookup = .ok true ∧
      parse "(! (on) || name == \"a b\" )"
        = .ok (.bracket .opening :: (c ++ [.bracket .closing])) ∧
      Condition.evaluate lookup (.negation .not :: .bracket .opening :: (c ++ [.bracket .closing]))
        = .ok false ∧
      Condition.evaluate lookup (c ++ [.bracket .closing]) = .error .unbalancedBrackets := by
  intro lookup c
  have hread : parse "! (on) || name == \"a b\" " = .ok c := rfl
  have hvalue : c.evaluate lookup = .ok true := rfl
  have henclosed := parse_enclosed hread hvalue
  exact ⟨hread, hvalue, henclosed.1.1, henclosed.2.1.2, henclosed.2.2.2⟩

end Verdict
