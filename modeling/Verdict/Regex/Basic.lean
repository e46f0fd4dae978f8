/-!
# Regular expressions

Regular expressions are compiled and searched with by a library. What this program takes of it is in
this file: a text is compiled or refused (`RegexLibrary.compile?`), and what has been compiled is
searched for in a text from left to right (`Regex.captures?`), which finds the first place where it
matches and, of several ways to match there, the preferred one.

All the ways to match at a place belong to what an expression means, although a search shows only the
first of them: where the expression is a part of a larger one, what follows may call for another.

* `Regex.suffix_of_captures?` -- what is left behind a match is an end of the text.
-/

namespace Verdict

/-! ## 1. Compiled expressions -/

/-- A way to match from a place of a text on: the text left behind it, and what the named groups have
    captured, the last capture first. -/
structure Regex.Match where
  rest : List Char
  groups : List (String × List Char)
deriving DecidableEq

/-- What a group has captured last. -/
def Regex.Match.group? (m : Regex.Match) (name : String) : Option (List Char) :=
  m.groups.lookup name

/-- **A compiled expression**: its text, the names of its groups in the order they are written, and
    the ways to match in a text from where a rest of it is left, the preferred one first. -/
structure Regex where
  source : List Char
  names : List String
  ways : List Char → List Char → List Regex.Match
  suffix_of_mem : ∀ {text rest : List Char} {m : Regex.Match}, rest <:+ text →
    m ∈ ways text rest → m.rest <:+ rest
  names_of_mem : ∀ {text rest : List Char} {m : Regex.Match} {group : String × List Char},
    m ∈ ways text rest → group ∈ m.groups → group.1 ∈ names

/-- The first answer along a text, from its front on. -/
def leftmost? {α : Type} (answer : List Char → Option α) : List Char → Option α
  | [] => answer []
  | c :: cs => answer (c :: cs) <|> leftmost? answer cs

theorem leftmost?_eq_some {α : Type} {answer : List Char → Option α} {cs : List Char} {x : α}
    (h : leftmost? answer cs = some x) : ∃ rest, rest <:+ cs ∧ answer rest = some x := by
  induction cs with
  | nil => exact ⟨[], List.suffix_refl [], h⟩
  | cons c cs ih =>
    simp only [leftmost?, Option.orElse_eq_orElse, Option.orElse_eq_or, Option.or_eq_some_iff] at h
    rcases h with h | ⟨-, h⟩
    · exact ⟨c :: cs, List.suffix_refl _, h⟩
    · obtain ⟨rest, hrest, hx⟩ := ih h
      exact ⟨rest, hrest.trans (List.suffix_cons c cs), hx⟩

/-- Where only the front of a text has an answer it is the first one. -/
theorem leftmost?_of_front {α : Type} {answer : List Char → Option α} {cs : List Char}
    (h : ∀ rest, rest <:+ cs → rest.length < cs.length → answer rest = none) :
    leftmost? answer cs = answer cs := by
  cases cs with
  | nil => rfl
  | cons c cs =>
    have hlater : leftmost? answer cs = none := by
      cases hx : leftmost? answer cs with
      | none => rfl
      | some x =>
        obtain ⟨rest, hrest, hanswer⟩ := leftmost?_eq_some hx
        rw [h rest (hrest.trans (List.suffix_cons c cs)) (Nat.lt_succ_of_le hrest.length_le)]
          at hanswer
        cases hanswer
    rw [leftmost?, hlater]
    cases answer (c :: cs) <;> rfl

namespace Regex

/-- **The first match in a text**: where it begins furthest left, and there the preferred one. -/
def captures? (re : Regex) (text : List Char) : Option Match :=
  leftmost? (fun rest => (re.ways text rest).head?) text

/-- Does the expression match somewhere in the text? -/
def isMatch (re : Regex) (text : List Char) : Bool := (re.captures? text).isSome

/-- **The expression matches the whole text**, from its first character to its last. -/
def MatchesWhole (re : Regex) (text : List Char) : Prop := ∃ m ∈ re.ways text text, m.rest = []

/-- What is left behind a match is an end of the text. -/
theorem suffix_of_captures? {re : Regex} {text : List Char} {m : Match}
    (h : re.captures? text = some m) : m.rest <:+ text := by
  obtain ⟨rest, hrest, hm⟩ := leftmost?_eq_some h
  exact (re.suffix_of_mem hrest (List.mem_of_head? hm)).trans hrest

/-! ## 2. Texts of expressions -/

/-- Does the character mean something in an expression? -/
def isMeta : Char → Bool
  | '\\' | '.' | '+' | '*' | '?' | '(' | ')' | '|' | '[' | ']' | '\x7b' | '\x7d' => true
  | '^' | '$' | '#' | '&' | '-' | '~' => true
  | _ => false

/-- The text that stands for the characters themselves. -/
def escape (cs : List Char) : List Char := cs.flatMap fun c => if isMeta c then ['\\', c] else [c]

theorem escape_cons (c : Char) (cs : List Char) : escape (c :: cs) = escape [c] ++ escape cs := by
  simp only [escape, List.flatMap_cons, List.flatMap_nil, List.append_nil]

/-- The text of an expression put between the two ends of a text, as a group. It is put there as text:
    one that closes more groups than it opens ends this one too. -/
def anchored (cs : List Char) : List Char := "^(?:".toList ++ cs ++ ")$".toList

end Regex

/-! ## 3. The library -/

/-- **The library that compiles expressions.** What it compiles keeps its text. -/
class RegexLibrary where
  compile? : List Char → Option Regex
  source_eq : ∀ {text : List Char} {re : Regex}, compile? text = some re → re.source = text

end Verdict
