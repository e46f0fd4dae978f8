import Verdict.Condition
import Verdict.Lexeme.Piece
import Verdict.Registry

/-!
# Reading a source text

A grammar is a registry of operators together with the form of names. `Grammar.read` takes a source
text apart from left to right: an operator that stands by itself between blanks, or else a piece of
brackets, negations and one operand. The first fault ends the reading.

There are two ways to read. A SCANNER searches for the front of a text with one regular expression,
which is put together from the names of the registry and the form of names, and tells the parts of the
front apart by its groups. The form of names may itself be given by an expression, which is put into
the other one as text. Where names have the usual form the front can also be read character by
character, without a library for expressions (`Grammar.readFront`). Both read alike, which is the
subject of `Verdict/Proofs/Scanning.lean`.

An operator stands by itself when all characters up to the blank occur in symbols of the registry, or
when they are one of its keywords. A run of such characters that names no operator is taken for an
operand, which it can only be if names have an unusual form.

* `mem_longerFirst`: putting the longer names first loses none.
* `readBy_eq_drop`: passing over characters is reading behind them.
* `read_ne_nil`: a text of blanks is a fault, never an empty condition.
-/

namespace Verdict

open Text

/-! ## 1. Grammars -/

/-- A scanner: the expression for the front of a text, and where the form of names is given by an
    expression, that one put between the two ends of a text. -/
structure Scanner where
  front : Regex
  whole : Option Regex

/-- The operators of source texts, and the scanner that reads them if one does. -/
structure Grammar where
  registry : Registry
  scanner : Option Scanner

/-- The grammar of a registry with names of the usual form, read without a scanner. -/
def Registry.grammar (r : Registry) : Grammar := ⟨r, none⟩

namespace Grammar

/-- The grammar with the default operators and the usual form of names. -/
def default [RegexLibrary] : Grammar := ⟨.default, none⟩

/-- Is the lexeme a name? -/
def isName (g : Grammar) (lexeme : List Char) : Bool :=
  match g.scanner.bind (·.whole) with
  | none => isPlainName lexeme
  | some whole => whole.isMatch lexeme

/-! ## 2. Operators that stand by themselves -/

/-- Does the character occur in a symbol of the registry? -/
def isSymbolic (g : Grammar) (c : Char) : Bool :=
  g.registry.names.any fun name => name.isSymbol && name.chars.contains c

/-- Is the chunk read as an operator? -/
def isOperatorChunk (g : Grammar) (chunk : List Char) : Bool :=
  !chunk.isEmpty && chunk.all g.isSymbolic ||
    g.registry.names.any fun name => name.isKeyword && name.chars == chunk

/-- The operator a chunk names: a comparison first, then a connective, then a negation. -/
def operator? (g : Grammar) (chunk : List Char) : Option Element :=
  let name := String.ofList chunk
  (g.registry.comparison? name).map .comparison <|>
    (g.registry.connective? name).map .connective <|>
    (g.registry.negation? name).map .negation

/-- The element a chunk of operator characters stands for. -/
def readOperator (g : Grammar) (chunk : List Char) : Except Fault Element :=
  match g.operator? chunk with
  | some element => .ok element
  | none => (Operand.ofLexeme g.isName chunk).map .operand

/-! ## 3. Pieces -/

section ByLength

variable {α : Type} [Named α]

/-- A list with an operator put before the first one whose name is not longer. -/
def insertByLength (operator : α) : List α → List α
  | [] => [operator]
  | other :: others =>
    if (Named.name other).chars.length ≤ (Named.name operator).chars.length then
      operator :: other :: others
    else other :: insertByLength operator others

/-- The operators with longer names first, otherwise in their order. -/
def longerFirst (operators : List α) : List α := operators.foldr insertByLength []

theorem mem_insertByLength {n operator : α} {l : List α} :
    n ∈ insertByLength operator l ↔ n = operator ∨ n ∈ l := by
  induction l with
  | nil => exact List.mem_singleton.trans (by simp only [List.not_mem_nil, or_false])
  | cons other l ih =>
    rw [insertByLength]
    split
    · simp only [List.mem_cons]
    · simp only [List.mem_cons, ih]
      exact or_left_comm

theorem mem_longerFirst {n : α} {l : List α} : n ∈ longerFirst l ↔ n ∈ l := by
  induction l with
  | nil => exact Iff.rfl
  | cons m l ih =>
    rw [longerFirst, List.foldr_cons, mem_insertByLength, ← longerFirst, ih, List.mem_cons]

end ByLength

/-- The negations by a symbol, longer names first. -/
def symbolNegations (g : Grammar) : List Negation :=
  longerFirst (g.registry.negations.filter (·.name.isSymbol))

theorem mem_symbolNegations {g : Grammar} {n : Negation} :
    n ∈ g.symbolNegations ↔ n ∈ g.registry.negations ∧ n.name.isSymbol = true := by
  rw [symbolNegations, mem_longerFirst, List.mem_filter]

/-- The parts of a lead: the opening bracket and the negations by a symbol. -/
def leadParts (g : Grammar) : List (List Char) := ['('] :: g.symbolNegations.map (·.name.chars)

/-- The elements of a lead, each part the longest that fits; `skip` characters are passed before it
    goes on. None if at some place no part fits. -/
def leadElements? (negations : List Negation) (skip : Nat) : List Char → Option (List Element)
  | [] => some []
  | c :: cs =>
    match skip with
    | skip + 1 => leadElements? negations skip cs
    | 0 =>
      if c == '(' then (leadElements? negations 0 cs).map (.bracket .opening :: ·)
      else
        match negations.find? fun operator => operator.name.chars.isPrefixOf (c :: cs) with
        | none => none
        | some operator =>
          (leadElements? negations (operator.name.chars.length - 1) cs).map (.negation operator :: ·)

/-- Passing over characters of a lead is taking apart what is behind them. -/
theorem leadElements?_eq_drop (negations : List Negation) (skip : Nat) (cs : List Char) :
    leadElements? negations skip cs = leadElements? negations 0 (cs.drop skip) := by
  induction cs generalizing skip with
  | nil => cases skip <;> rfl
  | cons c cs ih =>
    cases skip with
    | zero => rfl
    | succ skip => exact ih skip

/-- The elements of a piece. -/
def pieceElements (g : Grammar) (piece : Piece) : Except Fault Condition := do
  let lead ←
    match leadElements? g.symbolNegations 0 piece.lead with
    | some lead => .ok lead
    | none => .error (.unknownElement (String.ofList piece.lead))
  let operand ←
    match piece.tail.lexeme with
    | none => .ok []
    | some lexeme => (Operand.ofLexeme g.isName lexeme).map fun o => [Element.operand o]
  return lead ++ operand ++ List.replicate piece.tail.closing (.bracket .closing)

/-! ## 4. Fronts of texts -/

/-- The elements at the front of a text that begins with no blank, and the text behind them, where
    names have the usual form. -/
def readFront (g : Grammar) (cs : List Char) : Except Fault (Condition × List Char) :=
  if g.isOperatorChunk (chunk cs) then
    (g.readOperator (chunk cs)).map fun element => ([element], afterChunk cs)
  else
    match Piece.read? g.leadParts pieceTail cs with
    | some piece => (g.pieceElements piece).map fun elements => (elements, piece.tail.rest)
    | none => .error (.unknownElement (String.ofList (chunk cs)))

/-- The elements of a match of the expression for a front: the operator that it has captured, or else
    the elements of the piece whose parts it has captured. -/
def matchElements (g : Grammar) (m : Regex.Match) : Except Fault Condition :=
  match m.group? "operator" with
  | some chunk => (g.readOperator chunk).map fun element => [element]
  | none =>
    g.pieceElements ⟨(m.group? "lead").getD [],
      ⟨m.group? "body", ((m.group? "close").getD []).length, m.rest⟩⟩

/-- The elements at the front of a text as an expression finds them, and the text behind them, from
    which a blank may be gone already. -/
def scanFront (g : Grammar) (front : Regex) (cs : List Char) :
    Except Fault (Condition × List Char) :=
  match front.captures? cs with
  | some m => (g.matchElements m).map fun elements => (elements, m.rest)
  | none => .error (.unknownElement (String.ofList (chunk cs)))

/-! ## 5. Whole texts -/

/-- The elements of a text behind its first `skip` characters, given what is read at a front. -/
def readBy (front : List Char → Except Fault (Condition × List Char)) (skip : Nat) :
    List Char → Except Fault Condition
  | [] => .ok []
  | c :: cs =>
    match skip with
    | skip + 1 => readBy front skip cs
    | 0 =>
      if isBlank c then readBy front 0 cs
      else do
        let (elements, rest) ← front (c :: cs)
        let more ← readBy front (cs.length - rest.length) cs
        return elements ++ more

/-- Passing over characters is reading behind them. -/
theorem readBy_eq_drop (front : List Char → Except Fault (Condition × List Char)) (skip : Nat)
    (cs : List Char) : readBy front skip cs = readBy front 0 (cs.drop skip) := by
  induction cs generalizing skip with
  | nil => cases skip <;> rfl
  | cons c cs ih =>
    cases skip with
    | zero => rfl
    | succ skip => exact ih skip

/-- The elements of a text behind its first `skip` characters, where names have the usual form. -/
def readFrom (g : Grammar) (skip : Nat) (cs : List Char) : Except Fault Condition :=
  readBy g.readFront skip cs

/-- The elements of a text, or a fault. -/
def elements (g : Grammar) (cs : List Char) : Except Fault Condition :=
  match g.scanner with
  | none => g.readFrom 0 cs
  | some scanner => readBy (g.scanFront scanner.front) 0 cs

/-- **The condition a text stands for.** -/
def read (g : Grammar) (text : String) : Except Fault Condition := do
  let elements ← g.elements text.toList
  if elements.isEmpty then .error .empty else return elements

theorem read_ne_nil {g : Grammar} {text : String} {c : Condition} (h : g.read text = .ok c) :
    c ≠ [] := by
  rintro rfl
  simp only [read] at h
  cases hr : g.elements text.toList with
  | error x => rw [hr] at h; cases h
  | ok es => rw [hr] at h; cases es <;> cases h

end Grammar

/-! ## 6. The expression for a front -/

namespace Registry

/-- The characters that occur in symbols, in order. -/
def symbols (r : Registry) : List Char :=
  ((List.range 128).map Char.ofNat).filter r.grammar.isSymbolic

/-- The keywords, longer ones first. -/
def keywords (r : Registry) : List OperatorName :=
  Grammar.longerFirst (r.names.filter (·.isKeyword))

/-- The text of some branches. -/
def choiceText (texts : List (List Char)) : List Char := ['|'].intercalate texts

/-- The text of the usual form of names. -/
def usualNameText : List Char := "[a-zA-Z][a-zA-Z0-9_-]+".toList

/-- The texts of the forms of operands, the form of names last. -/
def operandTexts (form : List Char) : List (List Char) :=
  ["(?s:'(?:\\\\.|[^'\\\\])*'|'.*?'|\"(?:\\\\.|[^\"\\\\])*\"|\".*?\")".toList,
    "-?(?:[0-9]+(?:\\.[0-9]*)?|\\.[0-9]+)".toList, "true|false".toList, form].map
    fun form => "(?:".toList ++ form ++ ")".toList

/-- The text for a piece, given a form of names: its lead, perhaps an operand, closing brackets. -/
def pieceText (r : Registry) (form : List Char) : List Char :=
  "(?P<lead>(?:".toList ++ choiceText (r.grammar.leadParts.map Regex.escape) ++ ")*)".toList ++
    ("(?P<body>".toList ++ choiceText (operandTexts form) ++ ")?".toList) ++
    "(?P<close>\\)*)".toList

/-- The texts for an operator by itself: a run of symbols, or one of the keywords. -/
def operatorTexts (r : Registry) : List (List Char) :=
  (if r.symbols.isEmpty then [] else ["[".toList ++ Regex.escape r.symbols ++ "]+".toList]) ++
    r.keywords.map (Regex.escape ·.chars)

/-- **The text of the expression for a front**, as it is put together from the names of a registry and
    a form of names: an operator by itself, where there are operators, or else a piece, and behind it
    a gap. -/
def frontText (r : Registry) (form : List Char) : List Char :=
  let front :=
    if r.operatorTexts.isEmpty then r.pieceText form
    else
      "(?P<operator>".toList ++ choiceText r.operatorTexts ++ ")|".toList ++ r.pieceText form
  "^(?:".toList ++ front ++ ")(?:\\s|$)".toList

end Registry

/-! ## 7. Scanners -/

section Library

variable [RegexLibrary]

/-- A text that the library has to take, for the sake of names. -/
def compiled (text : List Char) : Except Fault Regex :=
  match RegexLibrary.compile? text with
  | some re => .ok re
  | none => .error (.badNamePattern "it is not a regular expression")

/-- **The scanner of a registry**, with names of the usual form or of a form of their own, given by an
    expression. Of that only the text is used. -/
def Scanner.ofRegistry (r : Registry) (own : Option Regex) : Except Fault Scanner := do
  let whole ←
    match own with
    | none => .ok none
    | some own => (compiled (Regex.anchored own.source)).map some
  let front ← compiled (r.frontText (own.elim Registry.usualNameText Regex.source))
  return ⟨front, whole⟩

/-- The grammar of a registry that a scanner reads, with names of the usual form or of a form given by
    the text of an expression. -/
def Grammar.ofRegistry (r : Registry) (pattern : Option String) : Except Fault Grammar := do
  let own ←
    match pattern with
    | none => .ok none
    | some text => (compiled text.toList).map some
  let scanner ← Scanner.ofRegistry r own
  return ⟨r, some scanner⟩

end Library

end Verdict
