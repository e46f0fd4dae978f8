import Verdict.Proofs.Front
import Verdict.Proofs.Preference

/-!
# The forms of operands

The forms an operand may have are parts of the expression for a front: a text between quotes, a number,
a truth value, a name. A number, a truth value and a name are told by what they are made of, and end
where the word ends. A text between quotes is matched in two ways. The first goes up to a quote that is
not escaped, of which there is one at most. The second goes up to any quote, and since it is lazy the
first of those counts behind which the piece ends.

* `denotes_number`, `denotes_truth`, `denotes_usualName` -- the words of a form.
* `findSome?_word` -- a form of words matches the word at the front of a text, or nothing there.
* `findSome?_literal` -- **a text between quotes**, as far as it goes.
-/

namespace Verdict

open Text
open Regex (Match)
open scoped Computability

namespace Expr

/-! ## 1. Words -/

theorem holds_digit (c : Char) : (CharClass.set [.range '0' '9']).holds c = c.isDigit := by
  show (decide ('0' ≤ c) && decide (c ≤ '9') || false) = _
  rw [Bool.or_false]
  rfl

theorem denotes_digits : Denotes (many false digit) (texts AllDigits) :=
  (denotes_one (.set [.range '0' '9'])).many.congr fun w => by
    rw [CharClass.mem_kstar, mem_texts]
    simp only [holds_digit]
    rfl

theorem denotes_plus_digit : Denotes (plus digit) (texts fun w => w ≠ [] ∧ AllDigits w) :=
  (denotes_one (.set [.range '0' '9'])).plus.congr fun w => by
    rw [CharClass.mem_mul_kstar, mem_texts]
    simp only [holds_digit]
    rfl

/-- The digits and the point of a number. -/
theorem denotes_numeral : Denotes (choice
    (seq (plus digit) (option (group (seq (char '.') (many false digit)))))
    (seq (char '.') (plus digit))) (texts IsNumeral) := by
  have hpoint := denotes_one (.char '.')
  refine ((denotes_plus_digit.seq (hpoint.seq denotes_digits).group.option).choice
    (hpoint.seq denotes_plus_digit)).congr fun w => ?_
  simp only [Language.mem_add, Language.mem_mul, CharClass.mem_language_char, exists_eq_left,
    Language.mem_one, mem_texts]
  constructor
  · rintro (⟨digits, ⟨hne, hd⟩, more, ⟨fraction, hf, rfl⟩ | rfl, rfl⟩ |
      ⟨fraction, ⟨hne, hf⟩, rfl⟩)
    · exact .point hd hf (List.append_ne_nil_of_left_ne_nil hne fraction)
    · rw [List.append_nil]
      exact .whole hd hne
    · have hempty : ∀ c ∈ ([] : List Char), c.isDigit := fun _ hc => absurd hc List.not_mem_nil
      exact .point hempty hf hne
  · intro h
    cases h with
    | whole hd hne => exact .inl ⟨w, ⟨hne, hd⟩, [], .inr rfl, List.append_nil w⟩
    | @point digits fraction hd hf hne =>
      cases digits with
      | nil => exact .inr ⟨fraction, ⟨hne, hf⟩, rfl⟩
      | cons c digits =>
        exact .inl ⟨c :: digits, ⟨List.cons_ne_nil _ _, hd⟩, '.' :: fraction,
          .inl ⟨fraction, hf, rfl⟩, rfl⟩

theorem denotes_number : Denotes number (texts (Number.isLiteral · = true)) := by
  refine ((denotes_one .hyphen).option.seq denotes_numeral.group).congr fun w => ?_
  rw [Language.mem_mul, mem_texts, Number.isLiteral_iff]
  constructor
  · rintro ⟨mark, hmark, body, hbody, rfl⟩
    rcases (Language.mem_add _ _ _).mp hmark with ⟨c, hc, rfl⟩ | rfl
    · exact ⟨true, body, by rw [beq_iff_eq.mp hc]; rfl, hbody⟩
    · exact ⟨false, body, rfl, hbody⟩
  · rintro ⟨negative, body, rfl, hbody⟩
    cases negative with
    | true => exact ⟨['-'], .inl ⟨'-', rfl, rfl⟩, body, hbody, rfl⟩
    | false => exact ⟨[], .inr rfl, body, hbody, rfl⟩

theorem denotes_truth : Denotes truth (texts fun w => (readTruth? w).isSome = true) := by
  refine ((denotes_word "true".toList).choice (denotes_word "false".toList)).congr fun w => ?_
  show w = "true".toList ∨ w = "false".toList ↔ (readTruth? w).isSome = true
  constructor
  · rintro (rfl | rfl) <;> rfl
  · intro h
    obtain ⟨b, hb⟩ := Option.isSome_iff_exists.mp h
    rw [eq_of_readTruth? hb]
    cases b with
    | true => exact .inl rfl
    | false => exact .inr rfl

theorem decide_isUpper (c : Char) : (decide ('A' ≤ c) && decide (c ≤ 'Z')) = c.isUpper :=
  (Bool.decide_and _ _).symm

theorem holds_letter (c : Char) :
    (CharClass.set [.range 'a' 'z', .range 'A' 'Z']).holds c = c.isAlpha := by
  show (c.isLower || (decide ('A' ≤ c) && decide (c ≤ 'Z') || false)) = (c.isUpper || c.isLower)
  rw [decide_isUpper, Bool.or_false, Bool.or_comm]

theorem holds_nameTail (c : Char) : (CharClass.set
    [.range 'a' 'z', .range 'A' 'Z', .range '0' '9', .char '_', .hyphen]).holds c = isNameTail c := by
  show (c.isLower || (decide ('A' ≤ c) && decide (c ≤ 'Z') ||
      (c.isDigit || (c == '_' || (c == '-' || false)))))
    = (c.isUpper || c.isLower || c.isDigit || c == '_' || c == '-')
  rw [decide_isUpper, Bool.or_false, Bool.or_left_comm]
  simp only [Bool.or_assoc]

theorem denotes_usualName : Denotes usualName (texts (isPlainName · = true)) := by
  refine ((denotes_one _).seq (denotes_one _).plus).congr fun w => ?_
  rw [Language.mem_mul, mem_texts]
  simp only [CharClass.mem_mul_kstar, CharClass.mem_language, holds_letter, holds_nameTail]
  constructor
  · rintro ⟨_, ⟨c, hc, rfl⟩, v, ⟨hne, hv⟩, rfl⟩
    show (c.isAlpha && !v.isEmpty && v.all isNameTail) = true
    rw [hc, List.isEmpty_eq_false_iff.mpr hne, List.all_eq_true.mpr hv]
    rfl
  · intro h
    cases w with
    | nil => cases h
    | cons c v =>
      obtain ⟨hfront, hv⟩ := Bool.and_eq_true_iff.mp h
      obtain ⟨hc, hne⟩ := Bool.and_eq_true_iff.mp hfront
      rw [Bool.not_eq_true', List.isEmpty_eq_false_iff] at hne
      exact ⟨[c], ⟨c, hc, rfl⟩, v, ⟨hne, List.all_eq_true.mp hv⟩, rfl⟩

/-! ## 2. Where a word ends -/

variable {text cs : List Char} {e : Expr}

/-- The end of a piece whose operand has been taken from a text, with a rest left. -/
def tailBehind (cs rest : List Char) : Option Tail :=
  tailWith (some (cs.take (cs.length - rest.length))) rest

theorem tailBehind_append (w rest : List Char) :
    tailBehind (w ++ rest) rest = tailWith (some w) rest := by
  rw [tailBehind, List.length_append, Nat.add_sub_cancel, List.take_left]

theorem tailBehind_quoted {q : Char} (body rest : List Char) :
    tailBehind (q :: (body ++ q :: rest)) rest = tailWith (some (q :: body ++ [q])) rest := by
  have happend : q :: (body ++ q :: rest) = (q :: body ++ [q]) ++ rest := by
    rw [List.append_assoc]
    rfl
  rw [happend, tailBehind_append]

theorem closing?_of_tailBehind {rest : List Char} (h : tailBehind cs rest ≠ none) :
    closing? rest ≠ none := by
  intro hnone
  rw [tailBehind, tailWith, hnone] at h
  exact h rfl

/-- Where a piece may end there is no part of a word. -/
theorem isWordPart_of_closing? {rest : List Char} (h : closing? rest ≠ none) {c : Char}
    (hc : rest.head? = some c) : isWordPart c = false := by
  obtain ⟨ds, rfl⟩ := List.head?_eq_some_iff.mp hc
  refine Bool.eq_false_iff.mpr fun hpart => h ?_
  obtain ⟨hblank, hne⟩ := isWordPart_iff.mp hpart
  exact closing?_cons_of_ne hne hblank

/-- **A form of words**: if the word at the front of a text has it, that is the operand. -/
theorem findSome?_word {form : List Char → Bool} (h : Denotes e (texts (form · = true)))
    (hform : ∀ w, form w = true → ∀ c ∈ w, isWordPart c = true) :
    (e.ways text cs).findSome? (fun m => tailBehind cs m.rest) = wordTail form cs := by
  have hcs : Verdict.word cs ++ afterWord cs = cs := List.takeWhile_append_dropWhile
  have hends : ∀ rest, tailBehind cs rest ≠ none →
      ((∃ w ∈ texts (form · = true), w ++ rest = cs) ↔
        (if form (Verdict.word cs) then some (afterWord cs) else none) = some rest) := by
    intro rest hrest
    constructor
    · rintro ⟨w, hw, rfl⟩
      obtain ⟨hword, hafter⟩ := word_append (hform w hw) fun c hc =>
        isWordPart_of_closing? (closing?_of_tailBehind hrest) hc
      rw [hword, hafter, if_pos (mem_texts.mp hw)]
    · intro hfound
      split at hfound
      · rename_i hw
        cases hfound
        exact ⟨Verdict.word cs, hw, hcs⟩
      · cases hfound
  have htail : tailBehind cs (afterWord cs)
      = tailWith (some (Verdict.word cs)) (afterWord cs) := by
    have happend := tailBehind_append (Verdict.word cs) (afterWord cs)
    rwa [hcs] at happend
  rw [h.findSome?_ways hends, wordTail]
  split
  · exact htail
  · rfl

/-! ## 3. Texts between quotes -/

section Quotes

variable {q : Char}

/-- A backslash with the character it escapes, or another character that is no quote. -/
def IsUnit (q : Char) (w : List Char) : Prop :=
  (∃ c, w = ['\\', c]) ∨ ∃ c, c ≠ q ∧ c ≠ '\\' ∧ w = [c]

theorem denotes_quotedUnit (q : Char) : Denotes (quotedUnit q) (texts (IsUnit q)) := by
  refine (((denotes_one (.char '\\')).seq (denotes_one .any)).choice (denotes_one _)).congr
    fun w => ?_
  rw [Language.mem_add, Language.mem_mul, mem_texts]
  simp only [CharClass.mem_language_char, exists_eq_left]
  refine or_congr ⟨?_, ?_⟩ (exists_congr fun c => ?_)
  · rintro ⟨_, ⟨c, -, rfl⟩, rfl⟩
    exact ⟨c, rfl⟩
  · rintro ⟨c, rfl⟩
    exact ⟨[c], ⟨c, rfl, rfl⟩, rfl⟩
  · show (!(c == q || (c == '\\' || false))) = true ∧ _ ↔ _
    rw [Bool.or_false, Bool.not_eq_true', Bool.or_eq_false_iff, beq_eq_false_iff_ne,
      beq_eq_false_iff_ne, and_assoc]

theorem cutAtQuote_escaped (q c : Char) (cs : List Char) :
    cutAtQuote q true (c :: cs) = (cutAtQuote q false cs).map fun cut => (c :: cut.1, cut.2) := by
  have hescaped : ¬ (c == q && !true) = true := by
    rw [Bool.not_true, Bool.and_false]
    exact Bool.false_ne_true
  have hnext : escapesNext true c = false := by rw [escapesNext, Bool.not_true, Bool.and_false]
  rw [cutAtQuote, if_neg hescaped, hnext]

theorem cutAtQuote_of_ne {c : Char} (hc : c ≠ q) (cs : List Char) : cutAtQuote q false (c :: cs)
    = (cutAtQuote q (c == '\\') cs).map fun cut => (c :: cut.1, cut.2) := by
  have hne : ¬ (c == q && !false) = true := fun he => hc (beq_iff_eq.mp (Bool.and_eq_true_iff.mp he).1)
  have hnext : escapesNext false c = (c == '\\') := by rw [escapesNext, Bool.not_false, Bool.and_true]
  rw [cutAtQuote, if_neg hne, hnext]

/-- The first cut passes over such a unit. -/
theorem cutAtQuote_unit (hq : q ≠ '\\') {unit : List Char} (h : IsUnit q unit) (cs : List Char) :
    cutAtQuote q false (unit ++ cs)
      = (cutAtQuote q false cs).map fun cut => (unit ++ cut.1, cut.2) := by
  rcases h with ⟨c, rfl⟩ | ⟨c, hc, hback, rfl⟩
  · show cutAtQuote q false ('\\' :: c :: cs) = _
    rw [cutAtQuote_of_ne hq.symm, beq_self_eq_true, cutAtQuote_escaped, Option.map_map]
    rfl
  · show cutAtQuote q false (c :: cs) = _
    rw [cutAtQuote_of_ne hc, beq_eq_false_iff_ne.mpr hback]
    rfl

/-- What stands before the first quote that is not escaped is made of such units. -/
theorem mem_kstar_of_cutAtQuote {cs body rest : List Char}
    (h : cutAtQuote q false cs = some (body, rest)) : body ∈ (texts (IsUnit q))∗ := by
  have hcons : ∀ {unit body : List Char}, IsUnit q unit → body ∈ (texts (IsUnit q))∗ →
      unit ++ body ∈ (texts (IsUnit q))∗ := fun hunit hbody =>
    (mul_kstar_le_kstar : texts (IsUnit q) * (texts (IsUnit q))∗ ≤ _)
      (Language.append_mem_mul hunit hbody)
  induction hn : cs.length using Nat.strong_induction_on generalizing cs body with
  | h n ih =>
    subst hn
    cases cs with
    | nil => cases h
    | cons c cs =>
      by_cases hc : c = q
      · rw [hc, cutAtQuote, beq_self_eq_true] at h
        cases h
        exact Language.nil_mem_kstar _
      · rw [cutAtQuote_of_ne hc] at h
        obtain ⟨⟨body, rest⟩, hcut, he⟩ := Option.map_eq_some_iff.mp h
        cases he
        by_cases hback : c = '\\'
        · rw [hback, beq_self_eq_true] at hcut
          cases cs with
          | nil => cases hcut
          | cons d ds =>
            rw [cutAtQuote_escaped] at hcut
            obtain ⟨⟨more, behind⟩, hmore, he⟩ := Option.map_eq_some_iff.mp hcut
            cases he
            have hlt : ds.length < (c :: d :: ds).length := Nat.lt_succ_of_le (Nat.le_succ _)
            exact hcons (.inl ⟨d, congrArg (· :: [d]) hback⟩) (ih ds.length hlt hmore rfl)
        · rw [beq_eq_false_iff_ne.mpr hback] at hcut
          exact hcons (.inr ⟨c, hc, hback, rfl⟩) (ih cs.length (Nat.lt_succ_self _) hcut rfl)

/-- **Up to a quote that is not escaped**: what is left behind it is what the first cut leaves. -/
theorem exists_units_iff (hq : q ≠ '\\') {cs rest : List Char} :
    (∃ w ∈ (texts (IsUnit q))∗, w ++ q :: rest = cs) ↔
      (cutAtQuote q false cs).map (·.2) = some rest := by
  constructor
  · rintro ⟨w, hw, rfl⟩
    obtain ⟨units, rfl, hunits⟩ := Language.mem_kstar.mp hw
    have hcut : cutAtQuote q false (units.flatten ++ q :: rest) = some (units.flatten, rest) := by
      clear hw
      induction units with
      | nil =>
        rw [List.flatten_nil, List.nil_append, cutAtQuote, beq_self_eq_true]
        rfl
      | cons unit units ih =>
        obtain ⟨hunit, hunits⟩ := List.forall_mem_cons.mp hunits
        rw [List.flatten_cons, List.append_assoc, cutAtQuote_unit hq hunit,
          ih hunits]
        rfl
    rw [hcut]
    rfl
  · intro h
    obtain ⟨⟨body, rest⟩, hcut, rfl⟩ := Option.map_eq_some_iff.mp h
    exact ⟨body, mem_kstar_of_cutAtQuote hcut, cutAtQuote_append hcut⟩

end Quotes

theorem ways_char (text : List Char) (d c : Char) (cs : List Char) :
    (char d).ways text (c :: cs) = if c == d then [⟨cs, []⟩] else [] := rfl

/-- What is left behind a quote where a text begins with one. -/
def behindQuote (q : Char) : List Char → Option (List Char)
  | [] => none
  | c :: cs => if c == q then some cs else none

theorem findSome?_char {α : Type} (text : List Char) (q : Char) (cs : List Char)
    (k : Match → Option α) :
    ((char q).ways text cs).findSome? k = (behindQuote q cs).bind fun rest => k ⟨rest, []⟩ := by
  cases cs with
  | nil => rfl
  | cons c cs =>
    rw [ways_char, behindQuote]
    split
    · exact findSome?_singleton _ k
    · rfl

section Literals

variable {q : Char} {α : Type}

/-- The first form: up to the first quote that is not escaped. -/
theorem findSome?_proper (hq : q ≠ '\\') (k : List Char → Option α) :
    ((seq (many false (group (quotedUnit q))) (char q)).ways text cs).findSome? (fun m => k m.rest)
      = ((cutAtQuote q false cs).map (·.2)).bind k := by
  have hlanguage : Denotes (seq (many false (group (quotedUnit q))) (char q))
      ((texts (IsUnit q))∗ * (CharClass.char q).language) :=
    (denotes_quotedUnit q).group.many.seq (denotes_one (.char q))
  refine hlanguage.findSome?_ways fun rest _ => ?_
  rw [← exists_units_iff hq]
  simp only [Language.mem_mul, CharClass.mem_language_char, exists_eq_left]
  constructor
  · rintro ⟨_, ⟨w, hw, rfl⟩, hcs⟩
    exact ⟨w, hw, by rw [← hcs, List.append_assoc]; rfl⟩
  · rintro ⟨w, hw, hcs⟩
    exact ⟨_, ⟨w, hw, rfl⟩, by rw [← hcs, List.append_assoc]; rfl⟩

/-- The second form: up to any quote. -/
theorem findSome?_lazy (k : List Char → Option α) :
    ((seq (many true (one .any)) (char q)).ways text cs).findSome? (fun m => k m.rest)
      = cs.tails.findSome? fun rest => (behindQuote q rest).bind k := by
  rw [findSome?_seq, ways_many_any, List.findSome?_map]
  simp only [Function.comp_def, findSome?_char]
  rfl

/-- The first of all quotes behind which the piece ends is the one where it is cut. -/
theorem findSome?_tails (before cs : List Char) :
    (cs.tails.findSome? fun rest => (behindQuote q rest).bind (tailBehind (q :: (before ++ cs))))
      = (cutAtAnyQuote q cs).map fun cut =>
        ⟨some (q :: (before ++ cut.1) ++ [q]), cut.2.1, cut.2.2⟩ := by
  induction cs generalizing before with
  | nil => rfl
  | cons c cs ih =>
    have hmore := ih (before ++ [c])
    simp only [List.append_assoc, List.singleton_append] at hmore
    rw [List.tails_cons, List.findSome?_cons, behindQuote, cutAtAnyQuote, hmore]
    by_cases hc : c = q
    · subst hc
      rw [beq_self_eq_true, if_pos rfl, if_pos rfl, Option.bind_some, tailBehind_quoted, tailWith]
      cases closing? cs with
      | none =>
        rw [Option.map_none, Option.map_map]
        rfl
      | some cut => rw [Option.map_some, Option.map_some, List.append_nil]
    · rw [beq_eq_false_iff_ne.mpr hc, if_neg Bool.false_ne_true, if_neg Bool.false_ne_true,
        Option.map_map]
      rfl

/-- **A text between quotes**, where a text begins with a quote. -/
theorem findSome?_quoted (hq : q ≠ '\\') (cs : List Char) :
    ((quoted q).ways text (q :: cs)).findSome? (fun m => tailBehind (q :: cs) m.rest)
      = literalTail q cs := by
  have hbehind : behindQuote q (q :: cs) = some cs := by
    rw [behindQuote, beq_self_eq_true]
    rfl
  have hproper : ((cutAtQuote q false cs).map (·.2)).bind (tailBehind (q :: cs))
      = (cutAtQuote q false cs).bind fun cut => tailWith (some (q :: cut.1 ++ [q])) cut.2 := by
    cases hcut : cutAtQuote q false cs with
    | none => rfl
    | some cut =>
      rw [← cutAtQuote_append hcut]
      exact tailBehind_quoted cut.1 cut.2
  rw [quoted, findSome?_choice, findSome?_seq, findSome?_seq, findSome?_char, findSome?_char, hbehind,
    Option.bind_some, Option.bind_some, literalTail, Option.orElse_eq_orElse, Option.orElse_eq_or]
  exact congrArg₂ Option.or ((findSome?_proper hq _).trans hproper)
    ((findSome?_lazy _).trans (findSome?_tails [] cs))

/-- Nothing is matched where a text begins with no quote. -/
theorem findSome?_quoted_of_ne {k : Match → Option α} (h : behindQuote q cs = none) :
    ((quoted q).ways text cs).findSome? k = none := by
  rw [quoted, findSome?_choice, findSome?_seq, findSome?_seq, findSome?_char, findSome?_char, h]
  rfl

theorem findSome?_literal (text cs : List Char) :
    (literal.ways text cs).findSome? (fun m => tailBehind cs m.rest) = quotedTail cs := by
  have hne : ∀ {c q : Char} (ds : List Char), c ≠ q → behindQuote q (c :: ds) = none := by
    intro c q ds hc
    rw [behindQuote, beq_eq_false_iff_ne.mpr hc]
    rfl
  show ((choice (quoted '\'') (quoted '"')).ways text cs).findSome? _ = _
  rw [findSome?_choice]
  unfold quotedTail
  split
  · rw [findSome?_quoted (by decide), findSome?_quoted_of_ne (hne _ (by decide)), Option.or_none]
  · rw [findSome?_quoted (by decide), findSome?_quoted_of_ne (hne _ (by decide)), Option.none_or]
  · rename_i hsingle hdouble
    have hnone : ∀ q : Char, (∀ ds, cs ≠ q :: ds) → behindQuote q cs = none := by
      intro q hq
      cases cs with
      | nil => rfl
      | cons c ds => exact hne ds fun hc => hq ds (hc ▸ rfl)
    rw [findSome?_quoted_of_ne (hnone _ hsingle), findSome?_quoted_of_ne (hnone _ hdouble)]
    rfl

end Literals

end Expr

end Verdict
