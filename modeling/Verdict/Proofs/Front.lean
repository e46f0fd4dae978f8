import Verdict.Proofs.Legible
import Verdict.Regex.Expr

/-!
# The expression for a front

The front of a source text, which is an operator by itself or else a piece, is told by one expression.
Its text is put together from the names of a registry and a form of names. The names may be of any
punctuation and begin like one another, and the form of names is any expression, so it is no matter of
course what the text stands for. Here it is written as a tree.

* `Registry.front` -- the tree, for names of the usual form or of a form of their own.
* `Registry.text_front` -- **its text is the one that is put together.**
* `Registry.wellFormed_front` -- **the text stands for the tree**, for every registry and every form.
* `Registry.names_front` -- its groups are those of a front, and those of the form of names.
* `Scanner.reads_front` -- a scanner has been compiled from that text, and captures as the tree does.
-/

namespace Verdict

open Text

/-! ## 1. Operands -/

namespace Expr

/-- A character by itself. -/
def char (c : Char) : Expr := one (.char c)

/-- An escaped character, or one that is neither the quote nor a backslash. -/
def quotedUnit (q : Char) : Expr :=
  choice (seq (char '\\') (one .any)) (one (.complement [.char q, .char '\\']))

/-- A quoted text: up to a quote that is not escaped, or else up to any quote. -/
def quoted (q : Char) : Expr :=
  choice (seq (char q) (seq (many false (group (quotedUnit q))) (char q)))
    (seq (char q) (seq (many true (one .any)) (char q)))

def literal : Expr := dotAll (choice (quoted '\'') (quoted '"'))

def digit : Expr := one (.set [.range '0' '9'])

def number : Expr :=
  seq (option (one .hyphen)) (group (choice
    (seq (plus digit) (option (group (seq (char '.') (many false digit)))))
    (seq (char '.') (plus digit))))

def truth : Expr := choice (Expr.word "true".toList) (Expr.word "false".toList)

/-- A name of the usual form. -/
def usualName : Expr :=
  seq (one (.set [.range 'a' 'z', .range 'A' 'Z'])) (plus (one (.set
    [.range 'a' 'z', .range 'A' 'Z', .range '0' '9', .char '_', .hyphen])))

/-- A name: of the usual form, or of a form of its own. -/
def nameItem (own : Option Regex) : Expr := own.elim (group usualName) Expr.own

/-- The operand of a piece, if it has one. -/
def body (own : Option Regex) : Expr :=
  option (capture "body" (choices (group literal) [group number, group truth, nameItem own]))

/-- The closing brackets of a piece. -/
def close : Expr := capture "close" (many false (char ')'))

/-- A blank, or the end of a text. -/
def gap : Expr := group (choice (one .blank) finish)

end Expr

/-! ## 2. The front of a text -/

namespace Registry

open Verdict.Expr

/-- The operators that stand by themselves: a run of symbols, or a keyword. -/
def operators (r : Registry) : List Expr :=
  (if r.symbols.isEmpty then [] else [plus (one (.set (r.symbols.map .char)))]) ++
    r.keywords.map (Expr.word ·.chars)

theorem mem_operators {r : Registry} {e : Expr} : e ∈ r.operators ↔
    (r.symbols ≠ [] ∧ e = plus (one (.set (r.symbols.map .char)))) ∨
      ∃ name ∈ r.keywords, Expr.word name.chars = e := by
  rw [operators, List.mem_append, List.mem_map, List.mem_ite_nil_left, List.mem_singleton,
    List.isEmpty_iff]

/-- The opening bracket and the negations before an operand. -/
def lead (r : Registry) : Expr :=
  capture "lead" (many false (group
    (choices (Expr.word ['(']) (r.grammar.symbolNegations.map (Expr.word ·.name.chars)))))

/-- A piece: its lead, perhaps an operand, and its closing brackets. -/
def piece (r : Registry) (own : Option Regex) : Expr := seq r.lead (seq (body own) close)

/-- An operator by itself, where there are operators, or else a piece. -/
def operatorOrPiece (r : Registry) (own : Option Regex) : Expr :=
  match r.operators with
  | [] => r.piece own
  | first :: rest => choice (capture "operator" (choices first rest)) (r.piece own)

/-- **The expression for a front**: an operator or a piece, and behind it a gap. -/
def front (r : Registry) (own : Option Regex) : Expr :=
  seq start (seq (group (r.operatorOrPiece own)) gap)

/-- It depends on the names of the operators, and on what the negations are. -/
theorem front_congr {r s : Registry} (hnames : r.names = s.names)
    (hnegations : r.negations = s.negations) (own : Option Regex) : r.front own = s.front own := by
  have hsymbols : r.symbols = s.symbols := by
    unfold symbols Grammar.isSymbolic grammar
    rw [hnames]
  have hkeywords : r.keywords = s.keywords := by rw [keywords, keywords, hnames]
  have hoperators : r.operators = s.operators := by rw [operators, operators, hsymbols, hkeywords]
  have hlead : r.lead = s.lead := by
    unfold lead Grammar.symbolNegations grammar
    rw [hnegations]
  rw [front, front, operatorOrPiece, operatorOrPiece, piece, piece, hoperators, hlead]

/-! ## 3. Its text -/

theorem choiceText_cons (first next : List Char) (rest : List (List Char)) :
    choiceText (first :: next :: rest) = first ++ '|' :: choiceText (next :: rest) := by
  rw [choiceText, List.intercalate_cons_cons, List.append_assoc]
  rfl

theorem text_choices (first : Expr) (rest : List Expr) :
    (choices first rest).text = choiceText ((first :: rest).map Expr.text) := by
  induction rest generalizing first with
  | nil => exact List.intercalate_singleton.symm
  | cons second rest ih =>
    have hchoice : (choices first (second :: rest)).text
        = first.text ++ '|' :: (choices second rest).text := rfl
    rw [hchoice, ih, List.map_cons, List.map_cons, List.map_cons, choiceText_cons]

theorem text_symbols (cs : List Char) :
    (cs.map Member.char).flatMap Member.text = Regex.escape cs := by
  induction cs with
  | nil => rfl
  | cons c cs ih =>
    have hcons : ((c :: cs).map Member.char).flatMap Member.text
        = Regex.escape [c] ++ (cs.map Member.char).flatMap Member.text := rfl
    rw [hcons, ih, ← Regex.escape_cons]

theorem map_text_operators (r : Registry) : r.operators.map Expr.text = r.operatorTexts := by
  rw [operators, operatorTexts, List.map_append, List.map_map]
  congr 1
  · split
    · rfl
    · have hset : (plus (one (.set (r.symbols.map .char)))).text
          = '[' :: (r.symbols.map Member.char).flatMap Member.text ++ [']'] ++ ['+'] := rfl
      rw [List.map_singleton, hset, text_symbols, List.append_assoc]
      rfl
  · exact List.map_congr_left fun name _ => text_word name.chars

theorem text_lead (r : Registry) : r.lead.text = "(?P<lead>(?:".toList ++
    choiceText (r.grammar.leadParts.map Regex.escape) ++ ")*)".toList := by
  have hparts : (Expr.word ['('] ::
      r.grammar.symbolNegations.map (Expr.word ·.name.chars)).map Expr.text
      = r.grammar.leadParts.map Regex.escape := by
    simp only [Grammar.leadParts, List.map_cons, List.map_map, Function.comp_def, text_word]
  rw [← hparts, ← text_choices]
  show "(?P<lead>".toList ++ (("(?:".toList ++ _ ++ [')']) ++ ['*']) ++ [')'] = _
  simp only [List.append_assoc]
  rfl

theorem text_body (own : Option Regex) : (body own).text = "(?P<body>".toList ++
    choiceText (operandTexts (own.elim usualNameText Regex.source)) ++ ")?".toList := by
  have hforms : [group literal, group number, group truth, nameItem own].map Expr.text
      = operandTexts (own.elim usualNameText Regex.source) := by
    cases own with
    | none => rfl
    | some own => rfl
  rw [← hforms, ← text_choices]
  show "(?P<body>".toList ++ _ ++ [')'] ++ ['?'] = _
  rw [List.append_assoc]
  rfl

/-- **The text of the tree** is the one put together from the names and the form. -/
theorem text_front (r : Registry) (own : Option Regex) :
    (r.front own).text = r.frontText (own.elim usualNameText Regex.source) := by
  have hpiece : (r.piece own).text = r.pieceText (own.elim usualNameText Regex.source) := by
    unfold pieceText
    rw [← text_lead, ← text_body]
    exact (List.append_assoc r.lead.text (body own).text close.text).symm
  have hfront : (r.operatorOrPiece own).text = if r.operatorTexts.isEmpty then
      r.pieceText (own.elim usualNameText Regex.source)
      else "(?P<operator>".toList ++ choiceText r.operatorTexts ++ ")|".toList ++
        r.pieceText (own.elim usualNameText Regex.source) := by
    rw [← map_text_operators, ← hpiece, operatorOrPiece]
    cases r.operators with
    | nil => rfl
    | cons first rest =>
      rw [← text_choices]
      show "(?P<operator>".toList ++ (choices first rest).text ++ [')'] ++ '|' :: _ = _
      rw [List.append_assoc _ [')'] _, List.append_assoc _ ")|".toList _]
      rfl
  unfold frontText
  rw [← hfront]
  show ['^'] ++ (("(?:".toList ++ (r.operatorOrPiece own).text ++ [')']) ++ gap.text) = _
  simp only [List.append_assoc]
  rfl

end Registry

/-! ## 4. It stands for its text -/

namespace Expr

theorem isBranch_word (cs : List Char) : (Expr.word cs).isBranch = true := by
  cases cs <;> rfl

theorem takes_word {cs : List Char} (h : cs ≠ []) : (Expr.word cs).takes = true := by
  cases cs with
  | nil => exact absurd rfl h
  | cons c cs => rfl

theorem takes_choices {first : Expr} {rest : List Expr}
    (h : ∀ e ∈ first :: rest, e.takes = true) : (choices first rest).takes = true := by
  induction rest generalizing first with
  | nil => exact h first List.mem_cons_self
  | cons second rest ih =>
    obtain ⟨hfirst, hrest⟩ := List.forall_mem_cons.mp h
    show (first.takes && (choices second rest).takes) = true
    rw [hfirst, ih hrest]
    rfl

variable [RegexLibrary]

theorem wellFormed_word (cs : List Char) : (Expr.word cs).WellFormed false := by
  induction cs with
  | nil => trivial
  | cons c cs ih => exact ⟨rfl, isBranch_word cs, trivial, ih⟩

theorem wellFormed_choices {first : Expr} {rest : List Expr}
    (h : ∀ e ∈ first :: rest, e.WellFormed false) : (choices first rest).WellFormed false := by
  induction rest generalizing first with
  | nil => exact h first List.mem_cons_self
  | cons second rest ih =>
    obtain ⟨hfirst, hrest⟩ := List.forall_mem_cons.mp h
    exact ⟨hfirst, ih hrest⟩

theorem wellFormed_literal : literal.WellFormed false := by
  simp [literal, quoted, quotedUnit, char, WellFormed, CharClass.WellFormed, isBranch, isItem, takes]

theorem wellFormed_number : number.WellFormed false := by
  simp [number, digit, char, WellFormed, CharClass.WellFormed, isBranch, isItem, takes]

theorem wellFormed_usualName : usualName.WellFormed false := by
  simp [usualName, WellFormed, CharClass.WellFormed, isBranch, isItem, takes]

theorem wellFormed_body {own : Option Regex}
    (hown : ∀ re, own = some re → RegexLibrary.compile? re.source = some re) :
    (body own).WellFormed false := by
  have hname : (nameItem own).WellFormed false := by
    cases own with
    | none => exact wellFormed_usualName
    | some re => exact ⟨rfl, hown re rfl⟩
  have htruth : truth.WellFormed false := ⟨wellFormed_word _, wellFormed_word _⟩
  refine ⟨rfl, wellFormed_choices ?_⟩
  simp only [List.forall_mem_cons, List.not_mem_nil, false_imp_iff, implies_true, and_true]
  exact ⟨wellFormed_literal, wellFormed_number, htruth, hname⟩

end Expr

namespace Registry

open Verdict.Expr

variable [RegexLibrary]

theorem wellFormed_lead (r : Registry) : r.lead.WellFormed false := by
  refine ⟨rfl, takes_choices fun e he => ?_, wellFormed_choices fun e he => ?_⟩
  · rcases List.mem_cons.mp he with rfl | he
    · exact takes_word (List.cons_ne_nil _ _)
    · obtain ⟨operator, -, rfl⟩ := List.mem_map.mp he
      exact takes_word operator.name.chars_ne_nil
  · rcases List.mem_cons.mp he with rfl | he
    · exact wellFormed_word _
    · obtain ⟨operator, -, rfl⟩ := List.mem_map.mp he
      exact wellFormed_word _

theorem wellFormed_of_mem_operators {r : Registry} {e : Expr} (h : e ∈ r.operators) :
    e.WellFormed false := by
  rcases mem_operators.mp h with ⟨hne, rfl⟩ | ⟨name, -, rfl⟩
  · refine ⟨rfl, rfl, fun hmap => hne (List.map_eq_nil_iff.mp hmap), fun hmem => ?_⟩
    obtain ⟨c, -, hc⟩ := List.mem_map.mp (List.dropLast_subset _ hmem)
    cases hc
  · exact wellFormed_word _

/-- **The text stands for the tree**, whatever the names are and whatever the form of names is. -/
theorem wellFormed_front (r : Registry) {own : Option Regex}
    (hown : ∀ re, own = some re → RegexLibrary.compile? re.source = some re) :
    (r.front own).WellFormed false := by
  have hclose : close.WellFormed false := ⟨rfl, rfl, trivial⟩
  have hpiece : (r.piece own).WellFormed false :=
    ⟨rfl, rfl, r.wellFormed_lead, rfl, rfl, wellFormed_body hown, hclose⟩
  have hfront : (r.operatorOrPiece own).WellFormed false := by
    unfold operatorOrPiece
    split
    · exact hpiece
    · rename_i first rest hoperators
      refine ⟨wellFormed_choices fun e he => wellFormed_of_mem_operators (r := r) ?_, hpiece⟩
      rw [hoperators]
      exact he
  exact ⟨rfl, rfl, trivial, rfl, rfl, hfront, trivial, trivial⟩

end Registry

/-! ## 5. Its groups -/

theorem Expr.names_word (cs : List Char) : (Expr.word cs).names = [] := by
  induction cs with
  | nil => rfl
  | cons c cs ih => exact ih

theorem Expr.names_choices {first : Expr} {rest : List Expr} (h : ∀ e ∈ rest, e.names = []) :
    (choices first rest).names = first.names := by
  induction rest generalizing first with
  | nil => rfl
  | cons second rest ih =>
    obtain ⟨hsecond, hrest⟩ := List.forall_mem_cons.mp h
    show first.names ++ (choices second rest).names = _
    rw [ih hrest, hsecond, List.append_nil]

/-- The groups by which the parts of a front are told apart. The first one counts only where the
    registry has operators. -/
def Registry.reservedNames (r : Registry) : List String :=
  (if r.names.isEmpty then [] else ["operator"]) ++ ["lead", "body", "close"]

namespace Registry

open Verdict.Expr

variable {r : Registry}

theorem mem_symbols {c : Char} : c ∈ r.symbols ↔ r.grammar.isSymbolic c = true := by
  rw [symbols, List.mem_filter, and_iff_right_iff_imp]
  intro h
  have hle : c ≤ '~' :=
    of_decide_eq_true (Bool.and_eq_true_iff.mp (Bool.and_eq_true_iff.mp
      (Bool.and_eq_true_iff.mp (isSymbolChar_of_isSymbolic h)).1).1).2
  have hlt : c.toNat < 128 := Nat.lt_of_le_of_lt hle (by decide)
  exact List.mem_map.mpr ⟨c.toNat, List.mem_range.mpr hlt, Char.ofNat_toNat c⟩

theorem mem_keywords {name : OperatorName} :
    name ∈ r.keywords ↔ name ∈ r.names ∧ name.isKeyword = true := by
  rw [keywords, Grammar.mem_longerFirst, List.mem_filter]

/-- There are operators in the expression where the registry has any. -/
theorem operators_eq_nil_iff : r.operators = [] ↔ r.names = [] := by
  simp only [List.eq_nil_iff_forall_not_mem]
  constructor
  · intro h name hm
    cases hk : name.isKeyword with
    | true => exact h _ (mem_operators.mpr (.inr ⟨name, mem_keywords.mpr ⟨hm, hk⟩, rfl⟩))
    | false =>
      obtain ⟨c, cs, hcs⟩ := List.exists_cons_of_ne_nil name.chars_ne_nil
      have hc : c ∈ r.symbols := mem_symbols.mpr (List.any_eq_true.mpr ⟨name, hm, by
        rw [name.isSymbol_eq_not_isKeyword, hk, hcs, List.contains_iff_mem.mpr List.mem_cons_self]
        rfl⟩)
      exact h _ (mem_operators.mpr (.inl ⟨List.ne_nil_of_mem hc, rfl⟩))
  · intro h e he
    rcases mem_operators.mp he with ⟨hne, -⟩ | ⟨name, hname, -⟩
    · obtain ⟨c, hc⟩ := List.exists_mem_of_ne_nil _ hne
      obtain ⟨name, hm, -⟩ := List.any_eq_true.mp (mem_symbols.mp hc)
      exact h name hm
    · exact h name (mem_keywords.mp hname).1

theorem names_operators {first : Expr} {rest : List Expr} (h : r.operators = first :: rest) :
    (choices first rest).names = [] := by
  have hnone : ∀ e ∈ first :: rest, e.names = [] := by
    intro e he
    rw [← h] at he
    rcases mem_operators.mp he with ⟨-, rfl⟩ | ⟨name, -, rfl⟩
    · rfl
    · exact names_word _
  obtain ⟨hfirst, hrest⟩ := List.forall_mem_cons.mp hnone
  rw [names_choices hrest, hfirst]

theorem names_lead (r : Registry) : r.lead.names = ["lead"] := by
  have hparts : (choices (Expr.word ['('])
      (r.grammar.symbolNegations.map (Expr.word ·.name.chars))).names = [] := by
    rw [names_choices fun e he => ?_, names_word]
    obtain ⟨operator, -, rfl⟩ := List.mem_map.mp he
    exact names_word _
  exact congrArg ("lead" :: ·) hparts

/-- **The groups of the expression**: those of a front, and between them those of a form of names. -/
theorem names_front (r : Registry) (own : Option Regex) : (r.front own).names =
    (if r.names.isEmpty then [] else ["operator"]) ++
      ("lead" :: "body" :: (own.elim [] Regex.names ++ ["close"])) := by
  have hbody : (body own).names = "body" :: own.elim [] Regex.names := by
    cases own <;> rfl
  have hpiece : (r.piece own).names = "lead" :: "body" :: (own.elim [] Regex.names ++ ["close"]) := by
    show r.lead.names ++ ((body own).names ++ ["close"]) = _
    rw [names_lead, hbody]
    rfl
  have hfront : (r.front own).names = (r.operatorOrPiece own).names :=
    List.append_nil (r.operatorOrPiece own).names
  rw [hfront, operatorOrPiece]
  cases hoperators : r.operators with
  | nil =>
    rw [operators_eq_nil_iff.mp hoperators]
    exact hpiece
  | cons first rest =>
    have hnames : r.names.isEmpty = false := by
      rw [List.isEmpty_eq_false_iff]
      intro h
      rw [operators_eq_nil_iff.mpr h] at hoperators
      cases hoperators
    show "operator" :: (choices first rest).names ++ (r.piece own).names = _
    rw [names_operators hoperators, hpiece, hnames]
    rfl

end Registry

/-! ## 6. Scanners -/

section Scanners

variable [RegexLibrary] {r : Registry} {own : Option Regex} {scanner : Scanner}

theorem compiled_eq_ok_iff {text : List Char} {re : Regex} :
    compiled text = .ok re ↔ RegexLibrary.compile? text = some re := by
  rw [compiled]
  cases RegexLibrary.compile? text with
  | none => exact iff_of_false nofun nofun
  | some found =>
    exact ⟨fun h => congrArg some (Except.ok.inj h), fun h => congrArg Except.ok (Option.some.inj h)⟩

/-- **A scanner has been compiled**, from the text of the tree, and with it a form of names that is put
    between the two ends of a text. -/
theorem scanner_eq_ok_iff : Scanner.ofRegistry r own = .ok scanner ↔
    RegexLibrary.compile? (r.front own).text = some scanner.front ∧
      (own = none ∧ scanner.whole = none ∨ ∃ re whole, own = some re ∧ scanner.whole = some whole ∧
        RegexLibrary.compile? (Regex.anchored re.source) = some whole) := by
  obtain ⟨front, whole⟩ := scanner
  rw [r.text_front own]
  cases own with
  | none =>
    have hscanner : Scanner.ofRegistry r none = (compiled (r.frontText Registry.usualNameText)).bind
        fun front => .ok ⟨front, none⟩ := rfl
    rw [hscanner, bind_eq_ok_iff]
    constructor
    · rintro ⟨_, hfront, he⟩
      cases he
      exact ⟨compiled_eq_ok_iff.mp hfront, .inl ⟨rfl, rfl⟩⟩
    · rintro ⟨hfront, ⟨-, rfl⟩ | ⟨_, _, hown, -⟩⟩
      · exact ⟨front, compiled_eq_ok_iff.mpr hfront, rfl⟩
      · cases hown
  | some re =>
    have hscanner : Scanner.ofRegistry r (some re)
        = ((compiled (Regex.anchored re.source)).map some).bind fun whole =>
            (compiled (r.frontText re.source)).bind fun front => .ok ⟨front, whole⟩ := rfl
    rw [hscanner, bind_eq_ok_iff]
    constructor
    · rintro ⟨_, hmap, hbind⟩
      obtain ⟨whole, hwhole, rfl⟩ := map_eq_ok_iff.mp hmap
      obtain ⟨_, hfront, he⟩ := bind_eq_ok_iff.mp hbind
      cases he
      exact ⟨compiled_eq_ok_iff.mp hfront,
        .inr ⟨re, whole, rfl, rfl, compiled_eq_ok_iff.mp hwhole⟩⟩
    · rintro ⟨hfront, ⟨hown, -⟩ | ⟨re, whole, hown, rfl, hwhole⟩⟩
      · cases hown
      · cases hown
        exact ⟨some whole, map_eq_ok_iff.mpr ⟨whole, compiled_eq_ok_iff.mpr hwhole, rfl⟩,
          bind_eq_ok_iff.mpr ⟨front, compiled_eq_ok_iff.mpr hfront, rfl⟩⟩

/-- **What the expression of a scanner captures**, where the library reads it as it is written. -/
theorem Scanner.reads_front (hown : ∀ re ∈ own, RegexLibrary.compile? re.source = some re)
    (hreads : RegexLibrary.Reads (r.front own)) (h : Scanner.ofRegistry r own = .ok scanner) :
    (r.front own).names.Nodup ∧
      ∀ cs, scanner.front.captures? cs = (r.front own).regex.captures? cs :=
  hreads (r.wellFormed_front hown) scanner.front (scanner_eq_ok_iff.mp h).1

end Scanners

end Verdict
