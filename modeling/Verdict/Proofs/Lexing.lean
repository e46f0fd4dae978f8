import Mathlib.Data.List.DropRight
import Mathlib.Data.List.Nodup
import Verdict.Evaluation
import Verdict.Proofs.Numerals
import Verdict.Proofs.Scanning
import Verdict.Regex.Table

/-!
# How the default grammar reads a text

The reading of the default grammar is written down a second time here, as one rule for the front of a
text that tries nothing: an operator by itself, or a lead of `(` and `!`, then a literal up to its
quote or a word, then closing brackets. A scanner of the default operators tries all ways to match an
expression, and the default grammar tries leads of all lengths. `scan_eq_condition` says that all three
readings agree on every text, also in their faults.

A literal ends at the first quote that no backslash escapes, if the piece ends behind it. Otherwise it
ends at the first quote behind the opening one, escaped or not, where the piece ends. An escape shows
in what stands before the quote: an odd run of backslashes.

* `literalTail_eq_literal?` -- where a literal ends.
* `front_eq_readFront` -- the rule for the front of a text.
* `scan_eq_condition` -- **the same reading for every text.**
-/

namespace Verdict

open Text

namespace Lexing

/-! ## 1. Operators -/

/-- The characters that default symbols are made of. -/
def isOperatorChar (c : Char) : Bool := ['!', '&', ':', '<', '=', '>', '|'].contains c

/-- The default operator with a name: a comparison, else a connective, else a negation. -/
def operator? [RegexLibrary] (name : List Char) : Option Element :=
  (Comparison.defaults.find? (·.name.chars == name)).map .comparison <|>
    (Connective.defaults.find? (·.name.chars == name)).map .connective <|>
    (Negation.defaults.find? (·.name.chars == name)).map .negation

/-- The default operators that are named by a word. -/
def wordOperators [RegexLibrary] : List Comparison :=
  [.isInList, .contains, .startsWith, .endsWith, .matchesPattern]

/-- The operator a word names. -/
def wordOperator? [RegexLibrary] (name : List Char) : Option Element :=
  (wordOperators.find? (·.name.chars == name)).map .comparison

/-! ## 2. Literals between quotes -/

/-- All ways to cut a text at a quote, leftmost first: what stands before the quote, and behind. -/
def cuts (q : Char) : List Char → List (List Char × List Char)
  | [] => []
  | c :: cs =>
    let later := (cuts q cs).map fun cut => (c :: cut.1, cut.2)
    if c == q then ([], cs) :: later else later

/-- Is a character escaped that stands behind this text? -/
def escapesBehind (cs : List Char) : Bool := (cs.rtakeWhile (· == '\\')).length % 2 == 1

/-- Does a piece end here: closing brackets, and then a blank or the end of the text? -/
def endsPiece (cs : List Char) : Bool := (cs.dropWhile (· == ')')).head?.all isBlank

/-- The body of the literal that a quote before the text opens, and the text behind the literal. -/
def literal? (q : Char) (cs : List Char) : Option (List Char × List Char) :=
  match (cuts q cs).find? fun cut => !escapesBehind cut.1 with
  | some (body, rest) =>
    if endsPiece rest then some (body, rest) else (cuts q cs).find? fun cut => endsPiece cut.2
  | none => (cuts q cs).find? fun cut => endsPiece cut.2

/-- Does the quote occur in the body without an escape? -/
def hasBareQuote (q : Char) (body : List Char) : Bool :=
  (cuts q body).any fun cut => !escapesBehind cut.1

/-! ## 3. Words -/

/-- Digits with at most one point, at least one digit, and a minus or none before them. -/
def isNumberWord (w : List Char) : Bool :=
  let digits := match w with
    | '-' :: ds => ds
    | ds => ds
  digits.all (fun c => c.isDigit || c == '.') && digits.any Char.isDigit && digits.count '.' ≤ 1

/-- An ASCII letter, and then at least one ASCII letter, digit, `_` or `-`. -/
def isNameWord : List Char → Bool
  | c :: d :: ds => c.isAlpha && (d :: ds).all fun e => e.isAlphanum || e == '_' || e == '-'
  | _ => false

/-- The operand a word is. -/
def wordOperand? (w : List Char) : Option Operand :=
  if isNumberWord w then (Number.read? w).map .number
  else if w = "true".toList then some (.truth true)
  else if w = "false".toList then some (.truth false)
  else if isNameWord w then some (.var (String.ofList w))
  else none

/-! ## 4. The front of a text -/

/-- A character of a lead. -/
def isLead (c : Char) : Bool := c == '(' || c == '!'

/-- The elements a lead stands for. -/
def leadElements (lead : List Char) : Condition :=
  lead.map fun c => if c = '(' then .bracket .opening else .negation .not

/-- So many closing brackets. -/
def closings (n : Nat) : Condition := List.replicate n (.bracket .closing)

/-- The quote a text begins with, and the text behind it. -/
def opened? : List Char → Option (Char × List Char)
  | '\'' :: cs => some ('\'', cs)
  | '"' :: cs => some ('"', cs)
  | _ => none

/-- A literal and closing brackets, behind the quote that opens it. `here` is what a fault shows. -/
def literalFront (here : List Char) (q : Char) (cs : List Char) :
    Except Fault (Condition × List Char) :=
  match literal? q cs with
  | none => .error (.unknownElement (String.ofList here))
  | some (body, rest) =>
    if hasBareQuote q body then .error (.badQuotation (String.ofList (q :: body ++ [q])))
    else
      .ok (.operand (.text (String.ofList body)) :: closings (rest.takeWhile (· == ')')).length,
        rest.dropWhile (· == ')'))

/-- A word or none, and closing brackets. -/
def wordFront (here cs behind : List Char) : Except Fault (Condition × List Char) :=
  let w := cs.rdropWhile (· == ')')
  let closing := closings (cs.rtakeWhile (· == ')')).length
  if w = [] then .ok (closing, behind)
  else
    match wordOperand? w with
    | some o => .ok (.operand o :: closing, behind)
    | none => .error (.unknownElement (String.ofList here))

/-- A lead, and a literal or a word with its closing brackets. -/
def pieceFront (cs : List Char) : Except Fault (Condition × List Char) :=
  let here := cs.takeWhile (!isBlank ·)
  let body :=
    match opened? (cs.dropWhile isLead) with
    | some (q, ds) => literalFront here q ds
    | none => wordFront here (here.dropWhile isLead) (cs.dropWhile (!isBlank ·))
  body.map fun front => (leadElements (cs.takeWhile isLead) ++ front.1, front.2)

/-- The elements at the front of a text that begins with no blank, and the text behind them. -/
def front [RegexLibrary] (cs : List Char) : Except Fault (Condition × List Char) :=
  let here := cs.takeWhile (!isBlank ·)
  let behind := cs.dropWhile (!isBlank ·)
  if here.all isOperatorChar then
    match operator? here with
    | some operator => .ok ([operator], behind)
    | none => .error (.badName (String.ofList here))
  else
    match wordOperator? here with
    | some operator => .ok ([operator], behind)
    | none => pieceFront cs

/-! ## 5. Operators agree -/

section Operators

variable {α : Type} [Named α]

theorem find?_foldl_insert (name : String) (l set : List α) :
    OperatorSet.find? name (l.foldl (fun set operator => OperatorSet.insert operator set) set)
      = (l.reverse.find? (OperatorSet.nameOf · == name)).or (OperatorSet.find? name set) := by
  induction l generalizing set with
  | nil => rfl
  | cons operator l ih =>
    rw [List.foldl_cons, ih, OperatorSet.find?_insert, List.reverse_cons, List.find?_append,
      Option.or_assoc]
    congr 1
    by_cases h : OperatorSet.nameOf operator = name
    · simp only [List.find?_cons, h, beq_self_eq_true, ↓reduceIte, Option.some_or]
    · simp only [List.find?_cons, beq_eq_false_iff_ne.mpr h, h, List.find?_nil, ↓reduceIte,
        Option.none_or]

/-- Among operators with different names, each is found by its own. -/
theorem find?_of_mem {l : List α} (h : (l.map OperatorSet.nameOf).Nodup) {a : α} (ha : a ∈ l) :
    l.find? (fun operator => (Named.name operator).chars == (Named.name a).chars) = some a := by
  cases hf : l.find? fun operator => (Named.name operator).chars == (Named.name a).chars with
  | none => exact absurd (beq_self_eq_true _) (List.find?_eq_none.mp hf a ha)
  | some b =>
    have hchars : ((Named.name b).chars == (Named.name a).chars) = true :=
      List.find?_some (p := fun operator => (Named.name operator).chars == (Named.name a).chars) hf
    exact congrArg some (List.inj_on_of_nodup_map h (List.mem_of_find?_eq_some hf) ha
      (String.toList_inj.mp (beq_iff_eq.mp hchars)))

/-- Registering operators with different names one by one loses none of them. -/
theorem find?_of_nodup {l : List α} (h : (l.map OperatorSet.nameOf).Nodup) (w : List Char) :
    OperatorSet.find? (String.ofList w)
        (l.foldl (fun set operator => OperatorSet.insert operator set) [])
      = l.find? fun operator => (Named.name operator).chars == w := by
  have hname : ∀ operator : α, (OperatorSet.nameOf operator == String.ofList w)
      = ((Named.name operator).chars == w) := by
    intro operator
    rw [Bool.eq_iff_iff, beq_iff_eq, beq_iff_eq, ← String.toList_inj, String.toList_ofList]
    rfl
  rw [find?_foldl_insert, show OperatorSet.find? (String.ofList w) ([] : List α) = none from rfl,
    Option.or_none]
  simp only [hname]
  cases hl : l.find? fun operator => (Named.name operator).chars == w with
  | none =>
    refine List.find?_eq_none.mpr fun a ha => ?_
    exact List.find?_eq_none.mp hl a (List.mem_reverse.mp ha)
  | some a =>
    have hw : ((Named.name a).chars == w) = true :=
      List.find?_some (p := fun operator => (Named.name operator).chars == w) hl
    have hreverse : (l.reverse.map OperatorSet.nameOf).Nodup := by
      rw [List.map_reverse]
      exact List.nodup_reverse.mpr h
    rw [← beq_iff_eq.mp hw]
    exact find?_of_mem hreverse (List.mem_reverse.mpr (List.mem_of_find?_eq_some hl))

end Operators

section Library

variable [RegexLibrary]

/-- The names of default comparisons are different. -/
theorem nodup_comparisons : (Comparison.defaults.map OperatorSet.nameOf).Nodup := by
  have hnames : Comparison.defaults.map OperatorSet.nameOf = ["==", "!=", ">", ">=", "<", "<=",
      "<:", "isIn", "contains", "hasPrefix", "hasSuffix", "matches"] := rfl
  rw [hnames]
  decide

theorem default_operator? (w : List Char) : Grammar.default.operator? w = operator? w := by
  have hc : Registry.default.comparison? (String.ofList w)
      = Comparison.defaults.find? (·.name.chars == w) :=
    find?_of_nodup (l := Comparison.defaults) nodup_comparisons w
  have hk : Registry.default.connective? (String.ofList w)
      = Connective.defaults.find? (·.name.chars == w) :=
    find?_of_nodup (l := Connective.defaults) (by decide) w
  have hn : Registry.default.negation? (String.ofList w)
      = Negation.defaults.find? (·.name.chars == w) :=
    find?_of_nodup (l := Negation.defaults) (by decide) w
  show ((Registry.default.comparison? _).map _ <|> (Registry.default.connective? _).map _ <|>
    (Registry.default.negation? _).map _) = _
  rw [hc, hk, hn]
  rfl

theorem default_isSymbolic (c : Char) : Grammar.default.isSymbolic c = isOperatorChar c := by
  have hmem : ∀ l : List OperatorName, (l.any fun name => name.isSymbol && name.chars.contains c)
      = ((l.filter (·.isSymbol)).flatMap (·.chars)).contains c := by
    intro l
    rw [Bool.eq_iff_iff, List.contains_iff_mem, List.mem_flatMap, List.any_eq_true]
    simp only [Bool.and_eq_true, List.contains_iff_mem, List.mem_filter, and_assoc]
  have hchars : (Registry.default.names.filter (·.isSymbol)).flatMap (·.chars)
      = "!=<<:<===>>=&&||!".toList := by
    rw [Registry.names_default]
    decide
  show (Registry.default.names.any fun name => name.isSymbol && name.chars.contains c) = _
  have hto : "!=<<:<===>>=&&||!".toList.all isOperatorChar = true := by decide
  have hfrom :
      ['!', '&', ':', '<', '=', '>', '|'].all "!=<<:<===>>=&&||!".toList.contains = true := by
    decide
  rw [hmem, hchars, Bool.eq_iff_iff]
  refine ⟨fun h => List.all_eq_true.mp hto c (List.contains_iff_mem.mp h), fun h => ?_⟩
  exact List.all_eq_true.mp hfrom c (List.contains_iff_mem.mp h)

theorem chars_wordOperators : wordOperators.map (·.name.chars) = ["isIn".toList,
    "contains".toList, "hasPrefix".toList, "hasSuffix".toList, "matches".toList] := rfl

theorem default_keyword (w : List Char) :
    (Registry.default.names.any fun name => name.isKeyword && name.chars == w)
      = (wordOperator? w).isSome := by
  have hmem : ∀ l : List OperatorName, (l.any fun name => name.isKeyword && name.chars == w)
      = ((l.filter (·.isKeyword)).map (·.chars)).contains w := by
    intro l
    rw [Bool.eq_iff_iff, List.contains_iff_mem, List.mem_map, List.any_eq_true]
    simp only [Bool.and_eq_true, beq_iff_eq, List.mem_filter, and_assoc]
  have hfind : (wordOperator? w).isSome = (wordOperators.map (·.name.chars)).contains w := by
    rw [wordOperator?, Option.isSome_map, List.isSome_find?, Bool.eq_iff_iff, List.contains_iff_mem,
      List.mem_map, List.any_eq_true]
    simp only [beq_iff_eq]
  have hkeywords : (Registry.default.names.filter (·.isKeyword)).map (·.chars) =
      ["contains".toList, "hasPrefix".toList, "hasSuffix".toList, "isIn".toList,
        "matches".toList] := by
    rw [Registry.names_default]
    decide
  have hperm : List.Perm ["contains".toList, "hasPrefix".toList, "hasSuffix".toList, "isIn".toList,
      "matches".toList] ["isIn".toList, "contains".toList, "hasPrefix".toList, "hasSuffix".toList,
      "matches".toList] := by decide
  rw [hmem, hfind, chars_wordOperators, hkeywords, Bool.eq_iff_iff, List.contains_iff_mem,
    List.contains_iff_mem]
  exact hperm.mem_iff

/-- **Which chunks are operators.** -/
theorem default_isOperatorChunk (w : List Char) : Grammar.default.isOperatorChunk w
    = (!w.isEmpty && w.all isOperatorChar || (wordOperator? w).isSome) := by
  have hall : w.all Grammar.default.isSymbolic = w.all isOperatorChar :=
    congrArg w.all (funext default_isSymbolic)
  rw [Grammar.isOperatorChunk, hall, ← default_keyword]
  rfl

/-- A word that names an operator names no other operator. -/
theorem operator?_of_wordOperator? {w : List Char} {e : Element} (h : wordOperator? w = some e) :
    operator? w = some e := by
  obtain ⟨operator, hf, he⟩ := Option.map_eq_some_iff.mp h
  have hm := List.mem_of_find?_eq_some hf
  have hw : operator.name.chars = w :=
    beq_iff_eq.mp (List.find?_some (p := fun operator : Comparison => operator.name.chars == w) hf)
  have hsub : wordOperators ⊆ Comparison.defaults := by
    simp only [wordOperators, Comparison.defaults, List.cons_subset, List.nil_subset, List.mem_cons,
      true_or, or_true, and_true]
  have hfound : Comparison.defaults.find? (·.name.chars == operator.name.chars) = some operator :=
    find?_of_mem nodup_comparisons (hsub hm)
  rw [← he, ← hw, operator?, hfound]
  rfl

/-- A symbol that names no operator is no operand either. -/
theorem readOperator_symbol {w : List Char} (hne : w ≠ []) (h : w.all isOperatorChar = true)
    (hn : operator? w = none) :
    Grammar.default.readOperator w = .error (.badName (String.ofList w)) := by
  rw [Grammar.readOperator, default_operator?, hn]
  cases w with
  | nil => exact absurd rfl hne
  | cons c cs =>
    have hc := List.all_eq_true.mp h c List.mem_cons_self
    rw [isOperatorChar, List.contains_iff_mem] at hc
    simp only [List.mem_cons, List.not_mem_nil, or_false] at hc
    rcases hc with rfl | rfl | rfl | rfl | rfl | rfl | rfl <;> rfl

end Library

/-! ## 6. Literals agree -/

/-- The parity carried along a text is the parity of the backslashes at its end. -/
theorem escapesBehind_eq_endsEscaped (cs : List Char) : escapesBehind cs = endsEscaped false cs := by
  have hrun : cs.rtakeWhile (· == '\\')
      = List.replicate (cs.rtakeWhile (· == '\\')).length '\\' :=
    List.eq_replicate_of_mem fun c hc =>
      beq_iff_eq.mp (List.mem_rtakeWhile_imp (p := (· == '\\')) hc)
  have hlast : (cs.rdropWhile (· == '\\')).getLast? ≠ some '\\' := by
    intro h
    obtain ⟨front, he⟩ := List.getLast?_eq_some_iff.mp h
    have hne : cs.rdropWhile (· == '\\') ≠ [] := by
      rw [he]
      exact List.append_ne_nil_of_right_ne_nil _ (List.cons_ne_nil _ _)
    refine List.rdropWhile_last_not _ _ hne (beq_iff_eq.mpr ?_)
    exact Option.some.inj ((List.getLast?_eq_some_getLast hne).symm.trans h)
  have hends := endsEscaped_append_replicate hlast (cs.rtakeWhile (· == '\\')).length
  rw [← hrun, List.rdropWhile_append_rtakeWhile] at hends
  rw [hends]
  rfl

/-- The first quote that is not escaped, looking on behind a text `before`. -/
theorem cutAtQuote_eq_find? (q : Char) (before cs : List Char) :
    cutAtQuote q (endsEscaped false before) cs
      = (cuts q cs).find? fun cut => !escapesBehind (before ++ cut.1) := by
  induction cs generalizing before with
  | nil => rfl
  | cons c cs ih =>
    have hnext : escapesNext (endsEscaped false before) c = endsEscaped false (before ++ [c]) :=
      (endsEscaped_append false before [c]).symm
    have hlater : ((cuts q cs).map fun cut => (c :: cut.1, cut.2)).find?
          (fun cut => !escapesBehind (before ++ cut.1))
        = (cutAtQuote q (escapesNext (endsEscaped false before) c) cs).map
            fun cut => (c :: cut.1, cut.2) := by
      rw [hnext, ih, List.find?_map]
      refine congrArg (fun p => Option.map _ ((cuts q cs).find? p)) (funext fun cut => ?_)
      show (!escapesBehind (before ++ c :: cut.1)) = _
      rw [List.append_assoc]
      rfl
    rw [cutAtQuote, cuts]
    by_cases hq : c = q
    · rw [beq_iff_eq.mpr hq, Bool.true_and, if_pos rfl, List.find?_cons, hlater]
      simp only [List.append_nil, escapesBehind_eq_endsEscaped]
      cases endsEscaped false before <;> rfl
    · rw [beq_eq_false_iff_ne.mpr hq]
      exact hlater.symm

/-- The first quote behind which the piece ends. -/
theorem cutAtAnyQuote_eq_find? (q : Char) (cs : List Char) :
    cutAtAnyQuote q cs = ((cuts q cs).find? fun cut => endsPiece cut.2).map fun cut =>
      (cut.1, (cut.2.takeWhile (· == ')')).length, cut.2.dropWhile (· == ')')) := by
  induction cs with
  | nil => rfl
  | cons c cs ih =>
    have hlater : (((cuts q cs).map fun cut => (c :: cut.1, cut.2)).find?
          fun cut => endsPiece cut.2).map (fun cut =>
            (cut.1, (cut.2.takeWhile (· == ')')).length, cut.2.dropWhile (· == ')')))
        = (cutAtAnyQuote q cs).map fun cut => (c :: cut.1, cut.2) := by
      rw [ih, List.find?_map, Option.map_map, Option.map_map]
      rfl
    rw [cutAtAnyQuote, cuts]
    by_cases hq : c = q
    · rw [beq_iff_eq.mpr hq, if_pos rfl, if_pos rfl, List.find?_cons, closing?]
      by_cases he : endsPiece cs = true
      · have he' : (cs.dropWhile (· == ')')).head?.all isBlank = true := he
        rw [if_pos he']
        simp only [he]
        rfl
      · have he' : ¬ (cs.dropWhile (· == ')')).head?.all isBlank = true := he
        rw [if_neg he', Bool.eq_false_iff.mpr he]
        exact hlater.symm
    · rw [beq_eq_false_iff_ne.mpr hq]
      exact hlater.symm

theorem tailWith_eq (lexeme : Option (List Char)) (cs : List Char) :
    tailWith lexeme cs = if endsPiece cs then
      some ⟨lexeme, (cs.takeWhile (· == ')')).length, cs.dropWhile (· == ')')⟩ else none := by
  rw [tailWith, closing?, endsPiece]
  split <;> rfl

/-- **Where a literal ends.** -/
theorem literalTail_eq_literal? (q : Char) (cs : List Char) :
    literalTail q cs = (literal? q cs).map fun cut =>
      ⟨some (q :: cut.1 ++ [q]), (cut.2.takeWhile (· == ')')).length,
        cut.2.dropWhile (· == ')')⟩ := by
  have hbare : cutAtQuote q false cs = (cuts q cs).find? fun cut => !escapesBehind cut.1 :=
    cutAtQuote_eq_find? q [] cs
  rw [literalTail, hbare, cutAtAnyQuote_eq_find?, literal?, Option.map_map]
  cases (cuts q cs).find? fun cut => !escapesBehind cut.1 with
  | none => rfl
  | some cut =>
    show (tailWith _ cut.2 <|> _) = _
    rw [tailWith_eq]
    by_cases he : endsPiece cut.2 = true
    · simp only [he, ↓reduceIte]
      rfl
    · simp only [he]
      rfl

theorem hasUnescaped_eq_isSome (q : Char) (escaped : Bool) (cs : List Char) :
    hasUnescaped q escaped cs = (cutAtQuote q escaped cs).isSome := by
  induction cs generalizing escaped with
  | nil => rfl
  | cons c cs ih =>
    rw [hasUnescaped, cutAtQuote, ih]
    cases c == q && !escaped with
    | true => rfl
    | false => rw [if_neg Bool.false_ne_true, Option.isSome_map, Bool.false_or]

theorem hasUnescaped_eq_hasBareQuote (q : Char) (body : List Char) :
    hasUnescaped q false body = hasBareQuote q body := by
  rw [hasUnescaped_eq_isSome, show cutAtQuote q false body = _ from cutAtQuote_eq_find? q [] body,
    List.isSome_find?, hasBareQuote]
  rfl

/-! ## 7. Words agree -/

theorem count_point_of_allDigits {ds : List Char} (h : AllDigits ds) : ds.count '.' = 0 := by
  refine List.count_eq_zero.mpr fun hm => ?_
  have hpoint := h _ hm
  exact absurd hpoint (by decide)

theorem count_point_of_isNumeral {cs : List Char} (h : IsNumeral cs) : cs.count '.' ≤ 1 := by
  cases h with
  | whole hd hne =>
    rw [count_point_of_allDigits hd]
    exact Nat.zero_le 1
  | point hd hf hne =>
    rw [List.count_append, List.count_cons_self, count_point_of_allDigits hd,
      count_point_of_allDigits hf]

/-- The first character that is no digit is a point, and there is no other. -/
theorem isNumeral_of_count {cs : List Char} (hall : ∀ c ∈ cs, c.isDigit = true ∨ c = '.')
    {d : Char} (hdm : d ∈ cs) (hdd : d.isDigit = true) (hcount : cs.count '.' ≤ 1) :
    IsNumeral cs := by
  have hd : AllDigits (cs.takeWhile Char.isDigit) := List.all_eq_true.mp List.all_takeWhile
  have happ := List.takeWhile_append_dropWhile (p := Char.isDigit) (l := cs)
  cases hr : cs.dropWhile Char.isDigit with
  | nil =>
    rw [hr, List.append_nil] at happ
    rw [happ] at hd
    exact .whole hd (List.ne_nil_of_mem hdm)
  | cons c fraction =>
    rw [hr] at happ
    have hmem : ∀ e ∈ c :: fraction, e ∈ cs := by
      intro e he
      rw [← happ]
      exact List.mem_append_right _ he
    have hno := List.head?_dropWhile_not Char.isDigit cs
    rw [hr] at hno
    have hc : c = '.' := by
      rcases hall c (hmem c List.mem_cons_self) with hc | hc
      · exact absurd hc (Bool.eq_false_iff.mp hno)
      · exact hc
    subst hc
    have hf : AllDigits fraction := by
      intro e he
      rcases hall e (hmem e (List.mem_cons_of_mem _ he)) with he' | he'
      · exact he'
      · rw [he'] at he
        have hpos := List.count_pos_iff.mpr he
        rw [← happ, List.count_append, List.count_cons_self] at hcount
        omega
    rw [← happ]
    refine .point hd hf fun hnil => ?_
    obtain ⟨hnone, hnone'⟩ := List.append_eq_nil_iff.mp hnil
    rw [hnone, hnone'] at happ
    rw [← happ, List.nil_append, List.mem_singleton] at hdm
    rw [hdm] at hdd
    cases hdd

/-- Counting points is another way to say what a numeral is. -/
theorem isNumeral_iff_count (cs : List Char) : IsNumeral cs ↔
    (∀ c ∈ cs, c.isDigit = true ∨ c = '.') ∧ (∃ c ∈ cs, c.isDigit = true) ∧ cs.count '.' ≤ 1 := by
  constructor
  · intro h
    have hall := fun c (hc : c ∈ cs) => digit_or_point_of_isNumeral h hc
    exact ⟨hall, exists_digit_of_isNumeral h, count_point_of_isNumeral h⟩
  · intro h
    obtain ⟨hall, ⟨d, hdm, hdd⟩, hcount⟩ := h
    exact isNumeral_of_count hall hdm hdd hcount

theorem isNumberWord_eq_isLiteral (w : List Char) : isNumberWord w = Number.isLiteral w := by
  have hbody : ∀ ds : List Char, (ds.all (fun c => c.isDigit || c == '.') && ds.any Char.isDigit &&
      decide (ds.count '.' ≤ 1)) = Number.isBody ds := by
    intro ds
    rw [Bool.eq_iff_iff, Number.isBody_iff, isNumeral_iff_count]
    simp only [Bool.and_eq_true, List.all_eq_true, List.any_eq_true, Bool.or_eq_true, beq_iff_eq,
      decide_eq_true_eq, and_assoc]
  by_cases hm : w.head? = some '-'
  · obtain ⟨ds, rfl⟩ := List.head?_eq_some_iff.mp hm
    exact hbody ds
  · rw [Number.isLiteral_of_head? hm, ← hbody]
    unfold isNumberWord
    split
    · exact absurd rfl hm
    · rfl

theorem isNameWord_eq_isPlainName (w : List Char) : isNameWord w = isPlainName w := by
  cases w with
  | nil => rfl
  | cons c cs =>
    cases cs with
    | nil =>
      show false = (c.isAlpha && false && true)
      rw [Bool.and_false, Bool.false_and]
    | cons d ds =>
      show (c.isAlpha && _) = (c.isAlpha && true && _)
      rw [Bool.and_true]
      rfl

/-- Words that are literals or names are operands, and no other words are. -/
theorem wordOperand?_isSome (w : List Char) :
    (wordOperand? w).isSome = (isLiteralWord w || isPlainName w) := by
  rw [wordOperand?, isLiteralWord, isNumberWord_eq_isLiteral, isNameWord_eq_isPlainName]
  by_cases hn : Number.isLiteral w = true
  · rw [if_pos hn, hn, Option.isSome_map, Number.read?_of_isLiteral hn]
    rfl
  · rw [if_neg hn, Bool.eq_false_iff.mpr hn, Bool.false_or]
    by_cases ht : w = "true".toList
    · rw [ht]
      rfl
    · by_cases hf : w = "false".toList
      · rw [hf]
        rfl
      · rw [if_neg ht, if_neg hf, readTruth?_of_ne ht hf, Option.isSome_none, Bool.false_or]
        cases isPlainName w <;> rfl

theorem isWordPart_of_wordOperand? {w : List Char} {o : Operand} (h : wordOperand? w = some o) :
    ∀ c ∈ w, isWordPart c = true := by
  have hs := wordOperand?_isSome w
  rw [h, Option.isSome_some] at hs
  rcases Bool.or_eq_true_iff.mp hs.symm with hl | hn
  · rcases Bool.or_eq_true_iff.mp hl with hl | ht
    · exact isWordPart_of_isLiteral hl
    · obtain ⟨b, hb⟩ := Option.isSome_iff_exists.mp ht
      rw [eq_of_readTruth? hb]
      exact isWordPart_of_mem_truthWord b
  · exact isWordPart_of_isPlainName hn

/-- The operand a word is, as the default grammar finds it. -/
theorem ofLexeme_of_wordOperand? {w : List Char} {o : Operand}
    (hq : ∀ c, w.head? = some c → isQuote c = false) (h : wordOperand? w = some o) :
    Operand.ofLexeme isPlainName w = .ok o := by
  have hquote := unquote?_of_head? hq
  unfold wordOperand? at h
  rw [isNumberWord_eq_isLiteral, isNameWord_eq_isPlainName] at h
  split at h
  · rename_i hn
    obtain ⟨x, hx, rfl⟩ := Option.map_eq_some_iff.mp h
    exact (Operand.Classified.number hquote hn hx).eq
  · rename_i hn
    split at h
    · rename_i hw
      rw [hw, ← Option.some.inj h]
      rfl
    · rename_i ht
      split at h
      · rename_i hw
        rw [hw, ← Option.some.inj h]
        rfl
      · rename_i hf
        have hliteral : isLiteralWord w = false := by
          rw [isLiteralWord, Bool.eq_false_iff.mpr hn, readTruth?_of_ne ht hf]
          rfl
        split at h
        · rename_i hname
          rw [← Option.some.inj h]
          exact (Operand.Classified.name hquote hliteral hname).eq
        · cases h

/-! ## 8. The front agrees -/

theorem default_plain [RegexLibrary] : Grammar.default.Plain := by
  refine ⟨rfl, fun n hn _ => ?_⟩
  exact List.mem_singleton.mp (show n ∈ [Negation.not] from hn)

theorem default_isLead [RegexLibrary] (c : Char) : Grammar.default.isLead c = isLead c := by
  have hparts : Grammar.default.leadParts = [['('], ['!']] := by
    rw [Grammar.default, Registry.default_eq]
    rfl
  rw [Grammar.isLead, hparts, isLead, Bool.eq_iff_iff, List.contains_iff_mem, Bool.or_eq_true,
    beq_iff_eq, beq_iff_eq]
  simp only [List.mem_cons, List.cons.injEq, and_true, List.not_mem_nil, or_false]

/-- What a piece comes to behind its lead. -/
def bodyFront (here : List Char) : Option Tail → Except Fault (Condition × List Char)
  | none => .error (.unknownElement (String.ofList here))
  | some tail => tail.elements.map fun es => (es, tail.rest)

theorem bodyFront_quote (here : List Char) {q : Char} (hq : isQuote q = true) (cs : List Char) :
    bodyFront here (pieceTail (q :: cs)) = literalFront here q cs := by
  rw [pieceTail_quote hq, literalTail_eq_literal?, literalFront]
  cases literal? q cs with
  | none => rfl
  | some cut =>
    obtain ⟨body, rest⟩ := cut
    have hlexeme : Operand.ofLexeme isPlainName (q :: body ++ [q])
        = if hasBareQuote q body then .error (.badQuotation (String.ofList (q :: body ++ [q])))
          else .ok (.text (String.ofList body)) := by
      rw [Operand.ofLexeme_quoted isPlainName hq, ← hasUnescaped_eq_hasBareQuote]
    show (Tail.elements ⟨some (q :: body ++ [q]), (rest.takeWhile (· == ')')).length,
      rest.dropWhile (· == ')')⟩).map (fun es => (es, rest.dropWhile (· == ')'))) = _
    rw [Tail.elements_some, hlexeme]
    show _ = if hasBareQuote q body = true then Except.error _ else Except.ok _
    by_cases hb : hasBareQuote q body = true
    · rw [if_pos hb, if_pos hb]
      rfl
    · rw [if_neg hb, if_neg hb]
      rfl

/-- Closing brackets are cut off behind a text that has none. -/
theorem closings_append {w : List Char} (hw : ∀ c ∈ w, c ≠ ')') (n : Nat) :
    (w ++ List.replicate n ')').rdropWhile (· == ')') = w ∧
      (w ++ List.replicate n ')').rtakeWhile (· == ')') = List.replicate n ')' := by
  have hcut := cut_closings (fun c hc => hw c (List.mem_reverse.mp (List.mem_of_head? hc))) n
  rw [List.rdropWhile, List.rtakeWhile, List.reverse_append, List.reverse_replicate, hcut.1, hcut.2,
    List.reverse_reverse, List.reverse_replicate]
  exact ⟨rfl, rfl⟩

/-- A word and closing brackets up to a gap. -/
theorem wordFront_append (here : List Char) {w rest : List Char}
    (hw : ∀ c ∈ w, isWordPart c = true) (hr : AtGap rest) (n : Nat) :
    wordFront here (chunk (w ++ (List.replicate n ')' ++ rest)))
        (afterChunk (w ++ (List.replicate n ')' ++ rest)))
      = if w = [] then .ok (closings n, rest)
        else
          match wordOperand? w with
          | some o => .ok (.operand o :: closings n, rest)
          | none => .error (.unknownElement (String.ofList here)) := by
  have hcs : ∀ c ∈ w ++ List.replicate n ')', isBlank c = false := by
    intro c hc
    rcases List.mem_append.mp hc with hc | hc
    · exact (isWordPart_iff.mp (hw c hc)).1
    · rw [List.eq_of_mem_replicate hc]
      decide
  have hw' : ∀ c ∈ w, c ≠ ')' := fun c hc => (isWordPart_iff.mp (hw c hc)).2
  rw [← List.append_assoc, (chunk_append hcs hr).1, (chunk_append hcs hr).2, wordFront,
    (closings_append hw' n).1, (closings_append hw' n).2, List.length_replicate]

/-- A word or none and closing brackets, up to a gap. -/
def IsWordPiece (cs : List Char) : Prop :=
  ∃ w n rest, cs = w ++ (List.replicate n ')' ++ rest) ∧ (∀ c ∈ w, isWordPart c = true) ∧ AtGap rest

theorem chunk_eq_append (cs : List Char) : (chunk cs).rdropWhile (· == ')') ++
    (List.replicate ((chunk cs).rtakeWhile (· == ')')).length ')' ++ afterChunk cs) = cs := by
  have hreplicate : List.replicate ((chunk cs).rtakeWhile (· == ')')).length ')'
      = (chunk cs).rtakeWhile (· == ')') := by
    refine (List.eq_replicate_iff.mpr ⟨rfl, fun c hc => ?_⟩).symm
    exact beq_iff_eq.mp (List.mem_rtakeWhile_imp (p := (· == ')')) hc)
  have hchunk : (chunk cs).rdropWhile (· == ')') ++ (chunk cs).rtakeWhile (· == ')') = chunk cs := by
    rw [List.rdropWhile, List.rtakeWhile, ← List.reverse_append, List.takeWhile_append_dropWhile,
      List.reverse_reverse]
  rw [hreplicate, ← List.append_assoc, hchunk, chunk_append_afterChunk]

/-- Where no word piece stands no form of a word is found, and no brackets by themselves. -/
theorem pieceTail_of_not_isWordPiece {cs : List Char} (h : ¬ IsWordPiece cs)
    (hq : ∀ c, cs.head? = some c → isQuote c = false) :
    pieceTail cs = none := by
  have hclosing : ∀ w ds, cs = w ++ ds → (∀ c ∈ w, isWordPart c = true) → closing? ds = none := by
    intro w ds hcs hw
    cases hc : closing? ds with
    | none => rfl
    | some closed =>
      refine absurd ⟨w, closed.1, closed.2, ?_, hw, (closing?_rest hc).2⟩ h
      rw [hcs, closing?_append hc]
  have hnone := hclosing [] cs rfl fun c hc => absurd hc List.not_mem_nil
  have hword : ∀ form, wordTail form cs = none := by
    intro form
    rw [wordTail, tailWith, hclosing (word cs) (afterWord cs) List.takeWhile_append_dropWhile.symm
      (List.all_eq_true.mp List.all_takeWhile)]
    split <;> rfl
  rw [pieceTail_of_not_quote hq, hword, hword, tailWith, hnone]
  rfl

theorem wordFront_of_not_isWordPiece (here : List Char) {cs : List Char} (h : ¬ IsWordPiece cs) :
    wordFront here (chunk cs) (afterChunk cs) = .error (.unknownElement (String.ofList here)) := by
  -- a word that ends with its closing brackets would be a piece after all
  have hparts : ¬ ∀ c ∈ (chunk cs).rdropWhile (· == ')'), isWordPart c = true := fun hw =>
    h ⟨_, _, afterChunk cs, (chunk_eq_append cs).symm, hw, atGap_afterChunk cs⟩
  have hne : (chunk cs).rdropWhile (· == ')') ≠ [] := by
    intro hnil
    rw [hnil] at hparts
    exact hparts fun c hc => absurd hc List.not_mem_nil
  have hnone : wordOperand? ((chunk cs).rdropWhile (· == ')')) = none := by
    cases ho : wordOperand? ((chunk cs).rdropWhile (· == ')')) with
    | none => rfl
    | some o => exact absurd (isWordPart_of_wordOperand? ho) hparts
  rw [wordFront, if_neg hne, hnone]

theorem bodyFront_word {cs : List Char} (here : List Char)
    (hq : ∀ c, cs.head? = some c → isQuote c = false) :
    bodyFront here (pieceTail cs)
      = wordFront here (chunk cs) (afterChunk cs) := by
  by_cases h : IsWordPiece cs
  · obtain ⟨w, n, rest, rfl, hw, hr⟩ := h
    have hq' : ∀ c, w.head? = some c → isQuote c = false := by
      intro c hc
      cases w with
      | nil => cases hc
      | cons d w => exact hq c hc
    rw [pieceTail_word hw hq' hr, wordFront_append here hw hr, ← wordOperand?_isSome]
    cases ho : wordOperand? w with
    | none =>
      rw [Option.isSome_none, if_neg Bool.false_ne_true]
      split
      · rfl
      · rfl
    | some o =>
      have hne : w ≠ [] := by
        intro hnil
        rw [hnil] at ho
        cases ho
      rw [Option.isSome_some, if_pos rfl, if_neg hne]
      show (Tail.elements ⟨some w, n, rest⟩).map _ = _
      rw [Tail.elements_some, ofLexeme_of_wordOperand? hq' ho]
      rfl
  · rw [pieceTail_of_not_isWordPiece h hq, wordFront_of_not_isWordPiece here h]
    rfl

theorem opened?_of_head? {cs : List Char} (h : ∀ c, cs.head? = some c → isQuote c = false) :
    opened? cs = none := by
  unfold opened?
  split
  · exact absurd (h _ rfl) (by decide)
  · exact absurd (h _ rfl) (by decide)
  · rfl

theorem leadElements_eq_map (lead : List Char) : leadElements lead = lead.map leadElement := by
  refine List.map_congr_left fun c _ => ?_
  rw [leadElement]
  by_cases hc : c = '('
  · rw [if_pos hc, if_pos (beq_iff_eq.mpr hc)]
  · rw [if_neg hc, if_neg (by rw [beq_iff_eq]; exact hc)]

/-- A lead has no blank, so it can be taken off before or after the rest of the piece is cut off. -/
theorem chunk_dropWhile_isLead (cs : List Char) :
    chunk (cs.dropWhile isLead) = (chunk cs).dropWhile isLead ∧
      afterChunk (cs.dropWhile isLead) = afterChunk cs := by
  induction cs with
  | nil => exact ⟨rfl, rfl⟩
  | cons c cs ih =>
    by_cases hl : isLead c = true
    · have hb : isBlank c = false := by
        rcases Bool.or_eq_true_iff.mp hl with h | h
        · rw [beq_iff_eq.mp h]
          decide
        · rw [beq_iff_eq.mp h]
          decide
      rw [List.dropWhile_cons_of_pos hl, (chunk_cons_of_not_blank hb cs).1,
        (chunk_cons_of_not_blank hb cs).2, List.dropWhile_cons_of_pos hl]
      exact ih
    · rw [List.dropWhile_cons_of_neg hl]
      refine ⟨?_, rfl⟩
      by_cases hb : isBlank c = true
      · rw [(chunk_cons_of_blank hb cs).1]
        rfl
      · rw [(chunk_cons_of_not_blank (Bool.eq_false_iff.mpr hb) cs).1,
          List.dropWhile_cons_of_neg hl]

/-- A piece that is no operator. -/
theorem readFront_of_piece [RegexLibrary] {cs : List Char}
    (h : Grammar.default.isOperatorChunk (chunk cs) = false) :
    Grammar.default.readFront cs = pieceFront cs := by
  have hlead : Grammar.default.isLead = isLead := funext default_isLead
  have hfront : Grammar.default.readFront cs =
      (bodyFront (chunk cs) (pieceTail (cs.dropWhile isLead))).map
        fun front => (leadElements (cs.takeWhile isLead) ++ front.1, front.2) := by
    rw [default_plain.readFront_of_piece h, hlead, leadElements_eq_map]
    cases pieceTail (cs.dropWhile isLead) with
    | none => rfl
    | some tail =>
      show Except.map _ tail.elements = (tail.elements.map _).map _
      cases tail.elements <;> rfl
  unfold pieceFront
  rw [hfront]
  by_cases hq : ∃ q ds, cs.dropWhile isLead = q :: ds ∧ isQuote q = true
  · obtain ⟨q, ds, hds, hq⟩ := hq
    have hopened : opened? (q :: ds) = some (q, ds) := by
      rcases eq_of_isQuote hq with rfl | rfl <;> rfl
    rw [hds, hopened, bodyFront_quote _ hq]
    rfl
  · have hhead : ∀ c, (cs.dropWhile isLead).head? = some c → isQuote c = false := by
      intro c hc
      obtain ⟨ds, hds⟩ := List.head?_eq_some_iff.mp hc
      exact Bool.eq_false_iff.mpr fun hcq => hq ⟨c, ds, hds, hcq⟩
    rw [opened?_of_head? hhead, bodyFront_word _ hhead, (chunk_dropWhile_isLead cs).1,
      (chunk_dropWhile_isLead cs).2]
    rfl

/-- **The rule for the front of a text.** -/
theorem front_eq_readFront [RegexLibrary] {c : Char} (hc : isBlank c = false) (cs : List Char) :
    Grammar.default.readFront (c :: cs) = front (c :: cs) := by
  have hne : chunk (c :: cs) ≠ [] := by
    rw [(chunk_cons_of_not_blank hc cs).1]
    exact List.cons_ne_nil _ _
  have hchunk := default_isOperatorChunk (chunk (c :: cs))
  rw [List.isEmpty_eq_false_iff.mpr hne, Bool.not_false, Bool.true_and] at hchunk
  have hfront : front (c :: cs) = if (chunk (c :: cs)).all isOperatorChar then
      match operator? (chunk (c :: cs)) with
      | some operator => .ok ([operator], afterChunk (c :: cs))
      | none => .error (.badName (String.ofList (chunk (c :: cs))))
    else
      match wordOperator? (chunk (c :: cs)) with
      | some operator => .ok ([operator], afterChunk (c :: cs))
      | none => pieceFront (c :: cs) := rfl
  rw [hfront]
  by_cases hs : (chunk (c :: cs)).all isOperatorChar = true
  · rw [hs, Bool.true_or] at hchunk
    rw [if_pos hs, Grammar.readFront, if_pos hchunk]
    cases ho : operator? (chunk (c :: cs)) with
    | none =>
      rw [readOperator_symbol hne hs ho]
      rfl
    | some e =>
      rw [Grammar.readOperator, default_operator?, ho]
      rfl
  · rw [if_neg hs]
    rw [Bool.eq_false_iff.mpr hs, Bool.false_or] at hchunk
    cases hw : wordOperator? (chunk (c :: cs)) with
    | none =>
      rw [hw] at hchunk
      exact readFront_of_piece hchunk
    | some e =>
      rw [hw, Option.isSome_some] at hchunk
      rw [Grammar.readFront, if_pos hchunk, Grammar.readOperator, default_operator?,
        operator?_of_wordOperator? hw]
      rfl

/-! ## 9. Whole texts -/

/-- What the front leaves is shorter. -/
theorem length_rest_lt [RegexLibrary] {cs ds rest : List Char} {c : Char} {es : Condition}
    (hs : skipBlank cs = c :: ds) (hf : front (c :: ds) = .ok (es, rest)) :
    rest.length < cs.length := by
  have hc := isBlank_of_skipBlank hs
  have hle := length_skipBlank_le cs
  rw [← front_eq_readFront hc] at hf
  obtain ⟨hsuffix, hgap⟩ := Grammar.rest_of_readFront hf
  have hlt := length_lt_of_suffix hc hsuffix hgap
  rw [hs] at hle
  omega

/-- The elements of a text: those at its front, and then those of what the front leaves. -/
def elements [RegexLibrary] (cs : List Char) : Except Fault Condition :=
  match hs : skipBlank cs with
  | [] => .ok []
  | c :: ds =>
    match hf : front (c :: ds) with
    | .error x => .error x
    | .ok (es, rest) =>
      have := length_rest_lt hs hf
      (elements rest).map (es ++ ·)
termination_by cs.length

/-- The condition a text stands for: its elements, and a fault if there are none. -/
def condition [RegexLibrary] (text : String) : Except Fault Condition :=
  match elements text.toList with
  | .error x => .error x
  | .ok [] => .error .empty
  | .ok es => .ok es

theorem elements_of_cons [RegexLibrary] {cs ds : List Char} {c : Char} (hs : skipBlank cs = c :: ds) :
    elements cs = (front (c :: ds)).bind fun (es, rest) => (elements rest).map (es ++ ·) := by
  rw [elements]
  split
  · rename_i hs'
    rw [hs] at hs'
    cases hs'
  · rename_i hs'
    rw [hs] at hs'
    cases hs'
    split
    · rename_i hf
      rw [hf]
      rfl
    · rename_i es rest hf
      show (elements rest).map (es ++ ·) = _
      rw [hf]
      rfl

theorem readFrom_eq_elements [RegexLibrary] (cs : List Char) :
    Grammar.default.readFrom 0 cs = elements cs := by
  induction hn : cs.length using Nat.strong_induction_on generalizing cs with
  | h n ih =>
    rw [← Grammar.readFrom_skipBlank]
    cases hs : skipBlank cs with
    | nil =>
      rw [elements]
      split
      · rfl
      · rename_i hs'
        rw [hs] at hs'
        cases hs'
    | cons c ds =>
      have hc := isBlank_of_skipBlank hs
      rw [elements_of_cons hs, Grammar.readFrom_cons hc, front_eq_readFront hc]
      cases hf : front (c :: ds) with
      | error x => rfl
      | ok read =>
        have hlt := length_rest_lt hs hf
        show (Grammar.default.readFrom 0 read.2).map _ = (elements read.2).map _
        rw [ih read.2.length (by omega) read.2 rfl]

/-- The default grammar reads every text this way by hand. -/
theorem parse_eq [RegexLibrary] (text : String) : parse text = condition text := by
  have helements : Grammar.default.elements text.toList = elements text.toList :=
    readFrom_eq_elements text.toList
  rw [parse, Grammar.read, helements, condition]
  cases elements text.toList with
  | error x => rfl
  | ok es => cases es <;> rfl

end Lexing

open RegexLibrary (Accepts Reads)

/-- **The default operators are scanned this way in every text**, with the same elements and the same
    faults, and the default grammar reads so too. -/
theorem scan_eq_condition [RegexLibrary] (haccepts : Accepts (Registry.default.front none))
    (hreads : Reads (Registry.default.front none)) (text : String) :
    (Grammar.ofRegistry .default none).bind (·.read text) = Lexing.condition text ∧
      parse text = Lexing.condition text := by
  refine ⟨?_, Lexing.parse_eq text⟩
  rw [Grammar.read_ofRegistry haccepts hreads]
  exact Lexing.parse_eq text

/-- The expression for a front of the default operators. -/
def Registry.defaultFront : Expr := (@Registry.default (.table [])).front none

theorem Registry.front_default [RegexLibrary] : Registry.default.front none = Registry.defaultFront :=
  front_congr (names_default.trans (@names_default (.table [])).symm)
    (negations_default.trans (@negations_default (.table [])).symm) none

/-- A literal with a quote that is escaped, between brackets and blanks. -/
theorem scan_eq_condition_quoted : letI := RegexLibrary.table [Registry.defaultFront.regex]
    Accepts (Registry.default.front none) ∧ Reads (Registry.default.front none) ∧
      ((Grammar.ofRegistry .default none).bind (·.read "!(name == 'it\\' s (so)')")
          = Lexing.condition "!(name == 'it\\' s (so)')" ∧
        parse "!(name == 'it\\' s (so)')" = Lexing.condition "!(name == 'it\\' s (so)')") := by
  let library := RegexLibrary.table [Registry.defaultFront.regex]
  obtain ⟨haccepts, hreads⟩ :=
    RegexLibrary.accepts_reads_table Registry.front_default (Registry.nodup_names_front _)
  exact ⟨haccepts, hreads, scan_eq_condition haccepts hreads _⟩

end Verdict
