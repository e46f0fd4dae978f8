import Verdict.Element

/-!
# Operands by their lexemes

A lexeme is a piece of the source text that stands for one operand. What it is is decided in this
order: a text between two equal quotes, a number literal, a truth value, the name of a variable.

A text literal ends with its quote, so that inside it the same quote must be escaped; the other
quote need not be. Which words are names is given from outside; `isPlainName` is the usual form.
-/

namespace Verdict

/-! ## 1. Forms -/

/-- A character of a name behind the first one. -/
def isNameTail (c : Char) : Bool := c.isAlphanum || c == '_' || c == '-'

/-- The usual form of a name: an ASCII letter, then at least one letter, digit, `_` or `-`. -/
def isPlainName : List Char → Bool
  | [] => false
  | c :: cs => c.isAlpha && !cs.isEmpty && cs.all isNameTail

/-- The characters between two equal quotes, and the quote. -/
def unquote? : List Char → Option (Char × List Char)
  | [] => none
  | q :: cs =>
    if (q == '\'' || q == '"') && cs.getLast? == some q then some (q, cs.dropLast) else none

/-- The truth value a word stands for. -/
def readTruth? (cs : List Char) : Option Bool :=
  if cs == ['t', 'r', 'u', 'e'] then some true
  else if cs == ['f', 'a', 'l', 's', 'e'] then some false
  else none

/-! ## 2. Classification -/

/-- A lexeme that is no literal: a name, or a fault. -/
def Operand.ofName (isName : List Char → Bool) (lexeme : List Char) : Except Fault Operand :=
  if isName lexeme then .ok (.var (String.ofList lexeme))
  else .error (.badName (String.ofList lexeme))

/-- A lexeme that is no text literal. -/
def Operand.ofWord (isName : List Char → Bool) (lexeme : List Char) : Except Fault Operand :=
  match if Number.isLiteral lexeme then Number.read? lexeme else none with
  | some x => .ok (.number x)
  | none =>
    match readTruth? lexeme with
    | some b => .ok (.truth b)
    | none => ofName isName lexeme

/-- **The operand a lexeme stands for.** -/
def Operand.ofLexeme (isName : List Char → Bool) (lexeme : List Char) : Except Fault Operand :=
  match unquote? lexeme with
  | some (q, body) =>
    if Text.hasUnescaped q false body then .error (.badQuotation (String.ofList lexeme))
    else .ok (.text (String.ofList body))
  | none => ofWord isName lexeme

end Verdict
