import Verdict.Text.Hidden

/-!
# Quoted texts

A text that a message quotes is put between double quotes, with an escape for every character that
would be lost or misread: the quote and the backslash take a backslash, line ends, tab and the null
character have letters, and what leaves no mark is shown by its code in braces.
-/

namespace Verdict.Text

/-- The lower-case hexadecimal digits of a code. -/
def hexDigits (n : Nat) : List Char := Nat.toDigits 16 n

/-- How a quotation shows one character. -/
def quoteChar (c : Char) : List Char :=
  match c with
  | '"' => ['\\', '"']
  | '\\' => ['\\', '\\']
  | '\t' => ['\\', 't']
  | '\n' => ['\\', 'n']
  | '\r' => ['\\', 'r']
  | '\x00' => ['\\', '0']
  | c => if isHidden c then ['\\', 'u', '\x7b'] ++ hexDigits c.toNat ++ ['\x7d'] else [c]

/-- The text between double quotes, with escapes. -/
def quoted (text : String) : String :=
  String.ofList ('"' :: text.toList.flatMap quoteChar ++ ['"'])

end Verdict.Text
