import Verdict.Proofs.Appending
import Verdict.Proofs.Registering

/-!
# Leads of any registry

A lead is a run of opening brackets and negations by symbols, right before an operand. Its text is
looked at twice. First it is found out how far it goes, and any way to cut the text into names is good
for that. Then it is cut, and at each place the longest name that fits is taken; this way may end at a
place where no name fits, although another way would have gone through.

* `takenLongest_iff` -- what the cutting yields, as a relation between the text and the elements.
* `firstTry_lead` -- a text that can be cut in some way is a lead as a whole.
* `piece_lead` -- before a name no shorter lead is tried with success.
* `read_lead` -- **a lead before a name is read as what the cutting yields, or is at fault for it.**
-/

namespace Verdict

open Text

/-! ## 1. Leads and how they are cut -/

/-- A lead: opening brackets, and negations by symbols that the registry holds. -/
def Registry.IsLead (r : Registry) (es : Condition) : Prop :=
  ∀ e ∈ es, e = .bracket .opening ∨
    ∃ operator ∈ r.negations, operator.name.isSymbol = true ∧ e = .negation operator

/-- No name of a negation by a symbol begins another such name. -/
def Registry.NoneBegins (r : Registry) : Prop :=
  ∀ a ∈ r.negations, ∀ b ∈ r.negations, a.name.isSymbol = true → b.name.isSymbol = true →
    a.name.chars <+: b.name.chars → a = b

/-- **A text cut into a lead**, the longest name that fits taken at each place. -/
inductive TakenLongest (r : Registry) : List Char → Condition → Prop
  | nil : TakenLongest r [] []
  | opening {cs : List Char} {es : Condition} (hrest : TakenLongest r cs es) :
      TakenLongest r ('(' :: cs) (.bracket .opening :: es)
  | negation {operator : Negation} {cs : List Char} {es : Condition}
      (hmem : operator ∈ r.negations) (hsymbol : operator.name.isSymbol = true)
      (hlongest : ∀ other ∈ r.negations, other.name.isSymbol = true →
        other.name.chars <+: operator.name.chars ++ cs →
          other.name.chars.length ≤ operator.name.chars.length)
      (hrest : TakenLongest r cs es) :
      TakenLongest r (operator.name.chars ++ cs) (.negation operator :: es)

variable {r : Registry}

theorem TakenLongest.isLead {cs : List Char} {es : Condition} (h : TakenLongest r cs es) :
    r.IsLead es := by
  induction h with
  | nil => exact nofun
  | opening _ ih => exact List.forall_mem_cons.mpr ⟨.inl rfl, ih⟩
  | negation hmem hsymbol _ _ ih =>
    exact List.forall_mem_cons.mpr ⟨.inr ⟨_, hmem, hsymbol, rfl⟩, ih⟩

theorem TakenLongest.chars {cs : List Char} {es : Condition} (h : TakenLongest r cs es) :
    es.flatMap Element.chars = cs := by
  induction h with
  | nil => rfl
  | opening _ ih =>
    rw [List.flatMap_cons, ih]
    rfl
  | negation _ _ _ _ ih =>
    rw [List.flatMap_cons, ih]
    rfl

/-- Two negations whose names fit at one place and are of one length are the same. -/
theorem Negation.eq_of_prefix {a b : Negation} {cs : List Char} (ha : a.name.chars <+: cs)
    (hb : b.name.chars <+: cs) (hlen : a.name.chars.length = b.name.chars.length) : a = b := by
  have hchars := (List.prefix_of_prefix_length_le ha hb hlen.le).eq_of_length hlen
  obtain ⟨name⟩ := a
  obtain ⟨other⟩ := b
  exact congrArg Negation.mk (OperatorName.eq_of_text (String.toList_inj.mp hchars))

/-- Where no name begins another, only one name fits, so that every lead is cut into itself. -/
theorem takenLongest_of_noneBegins (hr : r.NoneBegins) {es : Condition} (h : r.IsLead es) :
    TakenLongest r (es.flatMap Element.chars) es := by
  induction es with
  | nil => exact .nil
  | cons e es ih =>
    obtain ⟨he, hes⟩ := List.forall_mem_cons.mp h
    rw [List.flatMap_cons]
    rcases he with rfl | ⟨operator, hmem, hsymbol, rfl⟩
    · exact .opening (ih hes)
    · refine .negation hmem hsymbol (fun other hm hs hp => ?_) (ih hes)
      refine Nat.le_of_not_lt fun hlt => ?_
      have hpre : operator.name.chars <+: other.name.chars :=
        List.prefix_of_prefix_length_le (List.prefix_append _ _) hp hlt.le
      rw [hr operator hmem other hm hsymbol hs hpre] at hlt
      exact absurd hlt (Nat.lt_irrefl _)

/-! ## 2. The longest name first -/

/-- Longer names come first. -/
def LongerFirst (operators : List Negation) : Prop :=
  operators.Pairwise fun a b => b.name.chars.length ≤ a.name.chars.length

theorem LongerFirst.insertByLength {operators : List Negation} (h : LongerFirst operators)
    (operator : Negation) : LongerFirst (Grammar.insertByLength operator operators) := by
  induction operators with
  | nil => exact List.pairwise_singleton _ _
  | cons other operators ih =>
    obtain ⟨hother, hrest⟩ := List.pairwise_cons.mp h
    unfold Grammar.insertByLength
    split
    · rename_i hle
      refine List.pairwise_cons.mpr ⟨List.forall_mem_cons.mpr ⟨hle, fun n hn => ?_⟩, h⟩
      exact (hother n hn).trans hle
    · rename_i hlt
      have hlt : ¬ other.name.chars.length ≤ operator.name.chars.length := hlt
      refine List.pairwise_cons.mpr ⟨fun n hn => ?_, ih hrest⟩
      rcases Grammar.mem_insertByLength.mp hn with rfl | hn
      · omega
      · exact hother n hn

theorem longerFirst_symbolNegations (g : Grammar) : LongerFirst g.symbolNegations := by
  have h : ∀ l : List Negation, LongerFirst (l.foldr Grammar.insertByLength []) := by
    intro l
    induction l with
    | nil => exact List.Pairwise.nil
    | cons operator l ih => exact ih.insertByLength operator
  exact h _

/-- The first that passes a test is the longest that does. -/
theorem LongerFirst.le_of_find? {operators : List Negation} (h : LongerFirst operators)
    {p : Negation → Bool} {operator : Negation} (hf : operators.find? p = some operator)
    {other : Negation} (hm : other ∈ operators) (hp : p other = true) :
    other.name.chars.length ≤ operator.name.chars.length := by
  obtain ⟨-, before, behind, rfl, hbefore⟩ := List.find?_eq_some_iff_append.mp hf
  rcases List.mem_append.mp hm with hm | hm
  · have hn := hbefore other hm
    rw [hp] at hn
    cases hn
  · rcases List.mem_cons.mp hm with rfl | hm
    · exact Nat.le_refl _
    · exact (List.pairwise_cons.mp (List.pairwise_append.mp h).2.1).1 other hm

/-- What the search for a name finds is the longest that fits. -/
theorem find?_symbolNegations_iff {operator : Negation} {cs : List Char} :
    (r.grammar.symbolNegations.find? fun n => n.name.chars.isPrefixOf cs) = some operator ↔
      operator ∈ r.negations ∧ operator.name.isSymbol = true ∧ operator.name.chars <+: cs ∧
        ∀ other ∈ r.negations, other.name.isSymbol = true → other.name.chars <+: cs →
          other.name.chars.length ≤ operator.name.chars.length := by
  have hfits : ∀ {n : Negation}, (n.name.chars.isPrefixOf cs) = true ↔ n.name.chars <+: cs :=
    List.isPrefixOf_iff_prefix
  have hle := fun {operator other : Negation}
      (hf : (r.grammar.symbolNegations.find? fun n => n.name.chars.isPrefixOf cs) = some operator)
      (hm : other ∈ r.negations) (hs : other.name.isSymbol = true)
      (hp : other.name.chars <+: cs) =>
    (longerFirst_symbolNegations r.grammar).le_of_find? hf
      (Grammar.mem_symbolNegations.mpr ⟨hm, hs⟩) (hfits.mpr hp)
  constructor
  · intro hf
    obtain ⟨hm, hs⟩ := Grammar.mem_symbolNegations.mp (List.mem_of_find?_eq_some hf)
    have hp := List.find?_some (p := fun n : Negation => n.name.chars.isPrefixOf cs) hf
    exact ⟨hm, hs, hfits.mp hp, fun other hm hs hp => hle hf hm hs hp⟩
  · rintro ⟨hm, hs, hp, hlongest⟩
    have hmem := Grammar.mem_symbolNegations (g := r.grammar).mpr ⟨hm, hs⟩
    cases hf : r.grammar.symbolNegations.find? fun n => n.name.chars.isPrefixOf cs with
    | none => exact absurd (hfits.mpr hp) (List.find?_eq_none.mp hf operator hmem)
    | some other =>
      obtain ⟨hm', hs'⟩ := Grammar.mem_symbolNegations.mp (List.mem_of_find?_eq_some hf)
      have hp' := hfits.mp
        (List.find?_some (p := fun n : Negation => n.name.chars.isPrefixOf cs) hf)
      have hlen := Nat.le_antisymm (hlongest other hm' hs' hp') (hle hf hm hs hp)
      rw [Negation.eq_of_prefix hp' hp hlen]

/-! ## 3. Cutting a lead -/

theorem ne_opening_of_isSymbol {name : OperatorName} (h : name.isSymbol = true) {c : Char}
    (hc : c ∈ name.chars) : c ≠ '(' := by
  rintro rfl
  exact absurd (OperatorName.isSymbolChar_of_isSymbol h hc) (by decide)

theorem takenLongest_of_leadElements? {skip : Nat} {cs : List Char} {es : Condition}
    (h : Grammar.leadElements? r.grammar.symbolNegations skip cs = some es) :
    TakenLongest r (cs.drop skip) es := by
  induction cs generalizing skip es with
  | nil =>
    cases h
    rw [List.drop_nil]
    exact .nil
  | cons c cs ih =>
    cases skip with
    | succ skip => exact ih h
    | zero =>
      simp only [Grammar.leadElements?] at h
      split at h
      · rename_i hc
        obtain ⟨es', hes, rfl⟩ := Option.map_eq_some_iff.mp h
        rw [beq_iff_eq.mp hc]
        exact .opening (ih hes)
      · split at h
        · cases h
        · rename_i operator hf
          obtain ⟨es', hes, rfl⟩ := Option.map_eq_some_iff.mp h
          obtain ⟨hm, hs, ⟨rest, hrest⟩, hlongest⟩ := find?_symbolNegations_iff.mp hf
          have hlead := ih hes
          rw [Grammar.drop_pred_of_append operator.name.chars_ne_nil hrest] at hlead
          rw [← hrest] at hlongest
          rw [List.drop_zero, ← hrest]
          exact .negation hm hs hlongest hlead

theorem leadElements?_of_takenLongest {cs : List Char} {es : Condition}
    (h : TakenLongest r cs es) : Grammar.leadElements? r.grammar.symbolNegations 0 cs = some es := by
  induction h with
  | nil => rfl
  | opening _ ih =>
    rw [Grammar.leadElements?, if_pos (beq_self_eq_true _), ih]
    rfl
  | @negation operator cs es hmem hsymbol hlongest _ ih =>
    have hf := find?_symbolNegations_iff.mpr ⟨hmem, hsymbol, List.prefix_append _ cs, hlongest⟩
    obtain ⟨c, ds, hcs⟩ := List.exists_cons_of_ne_nil operator.name.chars_ne_nil
    have hc : ¬ (c == '(') = true := by
      rw [beq_iff_eq]
      exact ne_opening_of_isSymbol hsymbol (hcs ▸ List.mem_cons_self)
    have hwhole : operator.name.chars ++ cs = c :: (ds ++ cs) := by rw [hcs, List.cons_append]
    rw [hwhole] at hf ⊢
    rw [Grammar.leadElements?, if_neg hc, hf]
    show (Grammar.leadElements? _ (operator.name.chars.length - 1) (ds ++ cs)).map _ = _
    rw [Grammar.leadElements?_eq_drop,
      Grammar.drop_pred_of_append operator.name.chars_ne_nil hwhole, ih]
    rfl

/-- **What the cutting of a lead yields.** -/
theorem takenLongest_iff {cs : List Char} {es : Condition} :
    TakenLongest r cs es ↔ Grammar.leadElements? r.grammar.symbolNegations 0 cs = some es :=
  ⟨leadElements?_of_takenLongest, fun h => takenLongest_of_leadElements? h⟩

/-! ## 4. How far a lead goes -/

/-- The tries behind a run of lead characters are the tries for what comes behind it. -/
theorem getElem?_firstTry_append {α : Type} {parts : List (List Char)}
    {finish : List Char → Option α} {lead : List Char}
    (hlead : ∀ c ∈ lead, parts.any (·.contains c) = true) (cs : List Char) :
    (firstTry parts finish (lead ++ cs))[lead.length]? = (firstTry parts finish cs).head? := by
  induction lead with
  | nil => exact List.head?_eq_getElem?.symm
  | cons c lead ih =>
    obtain ⟨hc, hlead⟩ := List.forall_mem_cons.mp hlead
    rw [List.cons_append, firstTry, if_pos hc, List.length_cons, List.getElem?_cons_succ]
    exact ih hlead

/-- Where a piece can end, some try succeeds. -/
theorem exists_firstTry_of_finish {α : Type} {parts : List (List Char)}
    {finish : List Char → Option α} {cs : List Char} {x : α} (hx : finish cs = some x) :
    ∃ y, (firstTry parts finish cs).head?.join = some y := by
  cases cs with
  | nil => exact ⟨x, hx⟩
  | cons c cs =>
    rw [firstTry, hx]
    split
    · simp only [List.head?_cons, Option.join_some, Option.orElse_eq_orElse, Option.orElse_eq_or]
      cases parts.findSome? fun part =>
          if part.isPrefixOf (c :: cs) then (firstTry parts finish cs)[part.length - 1]?.join
          else none with
      | none => exact ⟨x, rfl⟩
      | some y => exact ⟨y, rfl⟩
    · exact ⟨x, rfl⟩

/-- A part before a text that is tried with success is tried with success. -/
theorem exists_firstTry_of_part {α : Type} {parts : List (List Char)}
    {finish : List Char → Option α} {part : List Char} (hpart : part ∈ parts) (hne : part ≠ [])
    {cs : List Char} {x : α} (hx : (firstTry parts finish cs).head?.join = some x) :
    ∃ y, (firstTry parts finish (part ++ cs)).head?.join = some y := by
  have hany : ∀ c ∈ part, parts.any (·.contains c) = true := fun c hc =>
    List.any_eq_true.mpr ⟨part, hpart, List.contains_iff_mem.mpr hc⟩
  obtain ⟨c, ds, rfl⟩ := List.exists_cons_of_ne_nil hne
  have hbehind : (firstTry parts finish (ds ++ cs))[ds.length]? = (firstTry parts finish cs).head? :=
    getElem?_firstTry_append (fun d hd => hany d (List.mem_cons_of_mem c hd)) cs
  have hfits : (c :: ds).isPrefixOf (c :: (ds ++ cs)) = true :=
    List.isPrefixOf_iff_prefix.mpr (List.prefix_append (c :: ds) cs)
  rw [List.cons_append, firstTry, if_pos (hany c List.mem_cons_self)]
  simp only [List.head?_cons, Option.join_some, Option.orElse_eq_orElse, Option.orElse_eq_or]
  cases hlonger : parts.findSome? fun part =>
      if part.isPrefixOf (c :: (ds ++ cs)) then
        (firstTry parts finish (ds ++ cs))[part.length - 1]?.join
      else none with
  | some y => exact ⟨y, rfl⟩
  | none =>
    have hnone := List.findSome?_eq_none_iff.mp hlonger _ hpart
    rw [if_pos hfits, List.length_cons, Nat.add_sub_cancel, hbehind, hx] at hnone
    cases hnone

/-- A part of a lead by its element: one of the parts of the grammar. -/
theorem Registry.IsLead.mem_leadParts {e : Element} (h : e = .bracket .opening ∨
    ∃ operator ∈ r.negations, operator.name.isSymbol = true ∧ e = .negation operator) :
    e.chars ∈ r.grammar.leadParts ∧ e.chars ≠ [] := by
  rcases h with rfl | ⟨operator, hm, hs, rfl⟩
  · exact ⟨List.mem_cons_self, List.cons_ne_nil _ _⟩
  · refine ⟨List.mem_cons_of_mem _ (List.mem_map.mpr ⟨operator, ?_, rfl⟩),
      operator.name.chars_ne_nil⟩
    exact Grammar.mem_symbolNegations.mpr ⟨hm, hs⟩

/-- **Any way to put a lead together is tried with success**, before a place where a piece can
    end. -/
theorem exists_firstTry_lead {α : Type} {finish : List Char → Option α} {cs : List Char} {x : α}
    (hx : finish cs = some x) {es : Condition} (h : r.IsLead es) :
    ∃ y, (firstTry r.grammar.leadParts finish (es.flatMap Element.chars ++ cs)).head?.join
      = some y := by
  induction es with
  | nil => exact exists_firstTry_of_finish hx
  | cons e es ih =>
    obtain ⟨he, hes⟩ := List.forall_mem_cons.mp h
    obtain ⟨hpart, hne⟩ := Registry.IsLead.mem_leadParts he
    obtain ⟨y, hy⟩ := ih hes
    rw [List.flatMap_cons, List.append_assoc]
    exact exists_firstTry_of_part hpart hne hy

/-! ## 5. A lead before a name -/

/-- A character of a lead: of a word, but no quote, letter or digit. -/
theorem char_of_any_leadParts {c : Char} (h : r.grammar.leadParts.any (·.contains c) = true) :
    isWordPart c = true ∧ isQuote c = false ∧ c.isAlphanum = false := by
  obtain ⟨part, hp, hc⟩ := List.any_eq_true.mp h
  have hc := List.contains_iff_mem.mp hc
  obtain ⟨hpart, hquote⟩ := Grammar.char_of_leadParts hp hc
  refine ⟨hpart, hquote, ?_⟩
  rcases Grammar.isSymbolic_of_leadParts hp hc with rfl | hs
  · decide
  · exact isAlphanum_of_isSymbolChar (isSymbolChar_of_isSymbolic hs)

theorem not_alpha_of_isLiteral {w : List Char} (h : Number.isLiteral w = true) {c : Char}
    (hc : c ∈ w) : c.isAlpha = false := by
  obtain ⟨negative, body, rfl, hb⟩ := (Number.isLiteral_iff w).mp h
  rcases List.mem_append.mp hc with hc | hc
  · cases negative with
    | true =>
      rw [List.mem_singleton.mp hc]
      decide
    | false => cases hc
  · exact not_alpha_of_numberHead ((digit_or_point_of_isNumeral hb hc).imp_right .inr)

/-- A word with a letter that begins with no letter or digit has no form of an operand. -/
theorem no_form_of_head {c : Char} {cs : List Char} (hc : c.isAlphanum = false) {d : Char}
    (hd : d ∈ cs) (hletter : d.isAlpha = true) :
    isLiteralWord (c :: cs) = false ∧ isPlainName (c :: cs) = false := by
  have hnumber : Number.isLiteral (c :: cs) = false := Bool.eq_false_iff.mpr fun hl => by
    rw [not_alpha_of_isLiteral hl (List.mem_cons_of_mem c hd)] at hletter
    cases hletter
  have htruth : (readTruth? (c :: cs)).isSome = false := Bool.eq_false_iff.mpr fun hs => by
    obtain ⟨b, hb⟩ := Option.isSome_iff_exists.mp hs
    have hall : ∀ b, (truthWord b).toList.all Char.isAlphanum = true := by decide
    have hhead := List.all_eq_true.mp (hall b) c (eq_of_readTruth? hb ▸ List.mem_cons_self)
    rw [hc] at hhead
    cases hhead
  refine ⟨Bool.or_eq_false_iff.mpr ⟨hnumber, htruth⟩, ?_⟩
  rw [isPlainName, (Bool.or_eq_false_iff.mp hc).1, Bool.false_and, Bool.false_and]

/-- A name by itself is a whole piece. -/
theorem pieceTail_name {w : List Char} (hw : isPlainName w = true) :
    pieceTail w = some ⟨some w, 0, []⟩ := by
  obtain ⟨d, ds, hcons, hd⟩ := exists_letter_of_isPlainName hw
  have halnum : d.isAlphanum = true := by rw [Char.isAlphanum, hd, Bool.true_or]
  have hquote : ∀ c, w.head? = some c → isQuote c = false := by
    intro c hc
    rw [hcons] at hc
    exact Option.some.inj hc ▸ isQuote_of_wordHead (.inl halnum)
  have hfinish := pieceTail_word (isWordPart_of_isPlainName hw) hquote atGap_nil 0
  rwa [List.replicate_zero, List.append_nil, List.append_nil, hw, Bool.or_true, if_pos rfl]
    at hfinish

/-- With something of a lead before it, it is none. -/
theorem pieceTail_lead_name {c : Char} {lead w : List Char}
    (hlead : ∀ d ∈ c :: lead, r.grammar.leadParts.any (·.contains d) = true)
    (hw : isPlainName w = true) : pieceTail (c :: lead ++ w) = none := by
  obtain ⟨d, ds, hcons, hd⟩ := exists_letter_of_isPlainName hw
  obtain ⟨-, hquote, halnum⟩ := char_of_any_leadParts (hlead c List.mem_cons_self)
  have hparts : ∀ d ∈ c :: lead ++ w, isWordPart d = true := fun d hd =>
    (List.mem_append.mp hd).elim (fun hd => (char_of_any_leadParts (hlead d hd)).1)
      (isWordPart_of_isPlainName hw d)
  have hm : d ∈ lead ++ w := List.mem_append_right _ (hcons ▸ List.mem_cons_self)
  obtain ⟨hliteral, hname⟩ := no_form_of_head halnum hm hd
  have hfinish := pieceTail_word hparts (fun d hd => Option.some.inj hd ▸ hquote) atGap_nil 0
  rw [List.replicate_zero, List.append_nil, List.append_nil, List.cons_append, hliteral, hname,
    if_neg (List.cons_ne_nil _ _)] at hfinish
  exact hfinish

theorem any_leadParts_of_isLead {es : Condition} (h : r.IsLead es) {c : Char}
    (hc : c ∈ es.flatMap Element.chars) : r.grammar.leadParts.any (·.contains c) = true := by
  obtain ⟨e, he, hc⟩ := List.mem_flatMap.mp hc
  have hpart := (Registry.IsLead.mem_leadParts (h e he)).1
  exact List.any_eq_true.mpr ⟨_, hpart, List.contains_iff_mem.mpr hc⟩

/-- A lead and a name are cut into a lead and an operand in one way: a shorter lead would leave a
    part of the lead before the name, and a longer one would take a letter. -/
theorem eq_of_lead_append_name {es : Condition} (h : r.IsLead es) {w lead ds : List Char}
    {tail : Tail} (hw : isPlainName w = true) (hcs : lead ++ ds = es.flatMap Element.chars ++ w)
    (hlead : ∀ c ∈ lead, r.grammar.leadParts.any (·.contains c) = true)
    (hds : pieceTail ds = some tail) :
    lead = es.flatMap Element.chars ∧ ds = w := by
  rcases List.append_eq_append_iff.mp hcs with ⟨more, hes, rfl⟩ | ⟨more, hes, hmore⟩
  · cases more with
    | nil => exact ⟨(hes.trans (List.append_nil lead)).symm, List.nil_append w⟩
    | cons c more =>
      have hnone : pieceTail (c :: more ++ w) = none :=
        pieceTail_lead_name (r := r)
          (fun d hd => any_leadParts_of_isLead h (hes ▸ List.mem_append_right lead hd)) hw
      rw [hds] at hnone
      cases hnone
  · cases more with
    | nil => exact ⟨hes.trans (List.append_nil _), hmore.symm⟩
    | cons c more =>
      obtain ⟨d, ds', hcons, hd⟩ := exists_letter_of_isPlainName hw
      obtain rfl : c = d := (List.cons.inj (hmore.symm.trans hcons)).1
      have hc := (char_of_any_leadParts (hlead c
        (hes ▸ List.mem_append_right _ List.mem_cons_self))).2.2
      rw [Char.isAlphanum, hd, Bool.true_or] at hc
      cases hc

/-- **Before a name the lead is all there is.** -/
theorem piece_lead {es : Condition} (h : r.IsLead es) {w : List Char}
    (hw : isPlainName w = true) :
    Piece.read? r.grammar.leadParts pieceTail
        (es.flatMap Element.chars ++ w)
      = some ⟨es.flatMap Element.chars, ⟨some w, 0, []⟩⟩ := by
  have htry : (pieceTail w).map (fun tail => (w, tail))
      = some (w, ⟨some w, 0, []⟩) := by
    rw [pieceTail_name hw]
    rfl
  obtain ⟨y, hy⟩ : ∃ y, (firstTry r.grammar.leadParts
      (fun ds => (pieceTail ds).map fun tail => (ds, tail))
      (es.flatMap Element.chars ++ w)).head?.join = some y := exists_firstTry_lead htry h
  obtain ⟨⟨lead, tail⟩, hp⟩ : ∃ piece, Piece.read? r.grammar.leadParts
      pieceTail (es.flatMap Element.chars ++ w) = some piece := by
    rw [Piece.read?, hy]
    exact ⟨_, rfl⟩
  rw [hp]
  obtain ⟨ds, hcs, hlead, hds⟩ := exists_place_of_piece hp
  obtain ⟨rfl, rfl⟩ := eq_of_lead_append_name h hw hcs hlead hds
  rw [pieceTail_name hw] at hds
  cases hds
  rfl

/-! ## 6. Reading it -/

/-- A lead before a name is one chunk and no operator: it has a letter in it and does not begin with
    one. -/
theorem foreign_lead_name {c : Char} {lead w : List Char}
    (hc : r.grammar.leadParts.any (·.contains c) = true) (hw : isPlainName w = true) :
    r.Foreign (c :: lead ++ w) := by
  obtain ⟨d, ds, rfl, hd⟩ := exists_letter_of_isPlainName hw
  have hletter : c.isAlpha = false := (Bool.or_eq_false_iff.mp (char_of_any_leadParts hc).2.2).1
  refine foreign_of_head? rfl hletter ⟨d, List.mem_append_right _ List.mem_cons_self, ?_⟩
  refine Bool.eq_false_iff.mpr fun hs => ?_
  have halnum := isAlphanum_of_isSymbolChar hs
  rw [Char.isAlphanum, hd, Bool.true_or] at halnum
  cases halnum

/-- **A lead before a name**: the front of the text is all of it, and is read as the elements that
    the cutting of the lead yields, and the variable. -/
theorem readFront_lead_name {es : Condition} (h : r.IsLead es) {c : Char} {cs : List Char}
    (hcs : es.flatMap Element.chars = c :: cs) {name : String}
    (hname : (Operand.var name).Legible) :
    r.grammar.readFront (c :: cs ++ name.toList) =
      match Grammar.leadElements? r.grammar.symbolNegations 0 (c :: cs) with
      | some ds => .ok (ds ++ [.operand (.var name)], [])
      | none => .error (.unknownElement (String.ofList (c :: cs))) := by
  have hchars : ∀ d ∈ c :: cs, r.grammar.leadParts.any (·.contains d) = true :=
    fun d hd => any_leadParts_of_isLead h (hcs ▸ hd)
  have hblank : ∀ d ∈ c :: cs ++ name.toList, isBlank d = false := fun d hd =>
    (isWordPart_iff.mp ((List.mem_append.mp hd).elim
      (fun hd => (char_of_any_leadParts (hchars d hd)).1)
      (isWordPart_of_isPlainName hname.1 d))).1
  have hchunk := (chunk_append hblank atGap_nil).1
  rw [List.append_nil] at hchunk
  have hforeign : r.Foreign (c :: cs ++ name.toList) :=
    foreign_lead_name (hchars c List.mem_cons_self) hname.1
  have hop := isOperatorChunk_of_foreign hforeign
  have hpiece := piece_lead h hname.1
  rw [hcs] at hpiece
  rw [Grammar.readFront, hchunk, hop, if_neg Bool.false_ne_true, hpiece]
  show (r.grammar.pieceElements ⟨c :: cs, ⟨some name.toList, 0, []⟩⟩).map _ = _
  have hisName : r.grammar.isName = isPlainName := rfl
  simp only [Grammar.pieceElements, hisName, (wordOf_var hname).operand]
  cases Grammar.leadElements? r.grammar.symbolNegations 0 (c :: cs) with
  | none => rfl
  | some ds =>
    show Except.ok _ = Except.ok _
    simp only [List.replicate_zero, List.append_nil]

/-- **A lead before a name**, for any registry. The text is read if its lead can be cut with the
    longest name taken at each place, and then as what that yields; otherwise it is at fault for the
    lead. Where no name of a negation begins another one every lead can be cut, and in one way. -/
theorem read_lead {es : Condition} (h : r.IsLead es) {s name : String}
    (hs : es.flatMap Element.chars = s.toList) (hne : s ≠ "")
    (hname : isPlainName name.toList = true) (ht : name ≠ "true") (hf : name ≠ "false") :
    (∀ ds, TakenLongest r s.toList ds → r.IsLead ds ∧ ds.flatMap Element.chars = s.toList ∧
      r.grammar.read (s ++ name) = .ok (ds ++ [.operand (.var name)])) ∧
    ((∀ ds, ¬ TakenLongest r s.toList ds) →
      r.grammar.read (s ++ name) = .error (.unknownElement s)) ∧
    (r.NoneBegins → TakenLongest r s.toList es) := by
  have hnil : s.toList ≠ [] := fun hnil => hne (String.toList_inj.mp hnil)
  obtain ⟨c, cs, hcs⟩ := List.exists_cons_of_ne_nil hnil
  have hfront := readFront_lead_name h (hs.trans hcs) ⟨hname, ht, hf⟩
  have hchars : (s ++ name).toList = c :: (cs ++ name.toList) := by
    rw [String.toList_append, hcs, List.cons_append]
  have hblank : isBlank c = false := (isWordPart_iff.mp (char_of_any_leadParts
    (any_leadParts_of_isLead h (hs.trans hcs ▸ List.mem_cons_self))).1).1
  refine ⟨fun ds hds => ⟨hds.isLead, hds.chars, ?_⟩, fun hnone => ?_, fun hr => ?_⟩
  · rw [hcs] at hds
    rw [takenLongest_iff.mp hds] at hfront
    exact Grammar.read_of_front hchars hblank (List.append_ne_nil_of_right_ne_nil _
      (List.cons_ne_nil _ _)) hfront
  · cases hl : Grammar.leadElements? r.grammar.symbolNegations 0 (c :: cs) with
    | some ds => exact absurd (hcs ▸ takenLongest_iff.mpr hl) (hnone ds)
    | none =>
      have htext : String.ofList (c :: cs) = s := by rw [← hcs, String.ofList_toList]
      rw [hl, htext] at hfront
      exact Grammar.read_of_front_fault hchars hblank hfront
  · exact hs ▸ takenLongest_of_noneBegins hr h

namespace Negation

def tilde : Negation := ⟨⟨"~", by decide⟩⟩
def tildeNot : Negation := ⟨⟨"~!", by decide⟩⟩
def notNot : Negation := ⟨⟨"!!", by decide⟩⟩

end Negation

/-- A registry whose only operators are negations. -/
def Registry.ofNegations (negations : List Negation) : Registry :=
  negations.foldl Registry.addNegation .empty

/-- Two names of which one begins the other: the longer one is taken first, wherever it fits. -/
theorem read_lead_longest :
    let r := Registry.ofNegations [.not, .notNot]
    let es : Condition := [.bracket .opening, .negation .not, .negation .notNot]
    r.IsLead es ∧ es.flatMap Element.chars = "(!!!".toList ∧ isPlainName "on".toList = true ∧
      TakenLongest r "(!!!".toList [.bracket .opening, .negation .notNot, .negation .not] ∧
      r.grammar.read "(!!!on" = .ok [.bracket .opening, .negation .notNot, .negation .not,
        .operand (.var "on")] := by
  intro r es
  have hlead : r.IsLead es := by
    refine List.forall_mem_cons.mpr ⟨.inl rfl, List.forall_mem_cons.mpr
      ⟨?_, List.forall_mem_singleton.mpr ?_⟩⟩
    · exact .inr ⟨.not, by decide, by decide, rfl⟩
    · exact .inr ⟨.notNot, by decide, by decide, rfl⟩
  have htaken : TakenLongest r "(!!!".toList
      [.bracket .opening, .negation .notNot, .negation .not] := takenLongest_iff.mpr rfl
  have hchars : es.flatMap Element.chars = "(!!!".toList := rfl
  have hname : isPlainName "on".toList = true := rfl
  obtain ⟨hread, -, -⟩ := read_lead hlead hchars (by decide) hname (by decide) (by decide)
  exact ⟨hlead, hchars, hname, htaken, (hread _ htaken).2.2⟩

/-- **A lead that is put together of names but cannot be cut**: behind `~!`, the longest that fits,
    nothing fits, though `~` and `!!` go through. -/
theorem read_lead_uncut :
    let r := Registry.ofNegations [.tilde, .tildeNot, .notNot]
    let es : Condition := [.negation .tilde, .negation .notNot]
    r.IsLead es ∧ es.flatMap Element.chars = "~!!".toList ∧ isPlainName "ab".toList = true ∧
      r.grammar.read ("~!!" ++ "ab") = .error (.unknownElement "~!!") ∧
      ¬ ∃ ds : Condition, r.grammar.read ("~!!" ++ "ab") = .ok (ds ++ [.operand (.var "ab")]) := by
  intro r es
  have hread : r.grammar.read ("~!!" ++ "ab") = .error (.unknownElement "~!!") := by rfl
  have hlead : r.IsLead es := by
    refine List.forall_mem_cons.mpr ⟨?_, List.forall_mem_singleton.mpr ?_⟩
    · exact .inr ⟨.tilde, by decide, by decide, rfl⟩
    · exact .inr ⟨.notNot, by decide, by decide, rfl⟩
  refine ⟨hlead, rfl, rfl, hread, fun ⟨ds, hds⟩ => ?_⟩
  rw [hread] at hds
  cases hds

end Verdict
