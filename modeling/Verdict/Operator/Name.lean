import Verdict.Fault

/-!
# Names of operators

An operator is named by a keyword or by a symbol. A keyword is a word of ASCII letters, digits and
`_` that begins with a letter; a symbol is a run of ASCII punctuation without the brackets, the
quotes and the backslash, which have a meaning of their own in a source text. A name is one or the
other and never both: the first character decides.

* `isSymbol_eq_not_isKeyword`: a name is a symbol exactly when it is no keyword.
-/

namespace Verdict

/-! ## 1. Two kinds of names -/

/-- ASCII punctuation: what is printed and is neither a letter nor a digit nor a blank. -/
def isPunctuation (c : Char) : Bool :=
  '!' ≤ c && c ≤ '~' && !c.isAlphanum

/-- A character that a symbol may have. -/
def isSymbolChar (c : Char) : Bool :=
  isPunctuation c && !(c == '(' || c == ')' || c == '\'' || c == '"' || c == '\\')

/-- A keyword: a letter, then letters, digits and `_`. -/
def isKeyword : List Char → Bool
  | [] => false
  | c :: cs => c.isAlpha && cs.all fun d => d.isAlphanum || d == '_'

/-- A symbol: punctuation, at least one character of it. -/
def isSymbol (cs : List Char) : Bool := !cs.isEmpty && cs.all isSymbolChar

/-- The name of an operator. -/
structure OperatorName where
  text : String
  valid : (isKeyword text.toList || isSymbol text.toList) = true
deriving DecidableEq

namespace OperatorName

/-- The characters of a name. -/
def chars (name : OperatorName) : List Char := name.text.toList

/-- The name a text stands for, if it can name an operator. -/
def ofString? (text : String) : Option OperatorName :=
  if h : (isKeyword text.toList || isSymbol text.toList) = true then some ⟨text, h⟩ else none

/-- The name a text stands for; a text that cannot name an operator is a fault. -/
def ofString (text : String) : Except Fault OperatorName :=
  match ofString? text with
  | some name => .ok name
  | none => .error (.badOperatorName text)

/-- Is the name a keyword? -/
def isKeyword (name : OperatorName) : Bool := Verdict.isKeyword name.chars

/-- Is the name a symbol? -/
def isSymbol (name : OperatorName) : Bool := Verdict.isSymbol name.chars

theorem eq_of_text {a b : OperatorName} (h : a.text = b.text) : a = b := by
  cases a
  cases b
  cases h
  rfl

theorem chars_ne_nil (name : OperatorName) : name.chars ≠ [] := by
  intro h
  have hv := name.valid
  rw [show name.text.toList = [] from h] at hv
  exact Bool.noConfusion hv

theorem isSymbol_eq_not_isKeyword (name : OperatorName) : name.isSymbol = !name.isKeyword := by
  have hv := name.valid
  simp only [isSymbol, isKeyword, chars] at *
  cases hk : Verdict.isKeyword name.text.toList with
  | false => simpa only [hk, Bool.false_or, Bool.not_false] using hv
  | true =>
    cases hc : name.text.toList with
    | nil => rw [hc] at hk; exact Bool.noConfusion hk
    | cons c cs =>
      rw [hc] at hk
      simp only [Verdict.isKeyword, Bool.and_eq_true] at hk
      have hn : c.isAlphanum = true := by simp only [Char.isAlphanum, hk.1, Bool.true_or]
      simp only [Verdict.isSymbol, List.all_cons, isSymbolChar, isPunctuation, hn, Bool.not_true,
        Bool.and_false, Bool.false_and]

end OperatorName

end Verdict
