import Verdict.Lexeme.Operand
import Verdict.Text.Blank

/-!
# Pieces of a source text

Between blanks stands an operator by itself, or a PIECE: a lead of opening brackets and negations by
symbols, one operand or none, and closing brackets. A piece ends where a blank or the end of the text
follows; only a text literal, or a name of an unusual form, may hold blanks.

How much of a piece is its lead is not always plain: with a negation named `-`, is `-5` a negated 5
or a number? The lead is tried longest names first and as long as it can be; the first try that
leaves a whole piece decides. `firstTry` makes the tries from the end of the lead to its front, so
that each place is tried once.

* `closing?_append`: closing brackets and the text behind them are the text again.
* `cutAtQuote_append`: so are the body of a literal, its quote and the text behind it.
-/

namespace Verdict

open Text

/-! ## 1. The end of a piece -/

/-- A piece without its lead: the lexeme of its operand, how many closing brackets follow, and the
    text behind them. -/
structure Tail where
  lexeme : Option (List Char)
  closing : Nat
  rest : List Char
deriving DecidableEq

/-- The closing brackets at the front of a text, if a blank or the end follows them. -/
def closing? (cs : List Char) : Option (Nat × List Char) :=
  let rest := cs.dropWhile (· == ')')
  if rest.head?.all isBlank then some ((cs.takeWhile (· == ')')).length, rest) else none

theorem closing?_append {cs rest : List Char} {n : Nat} (h : closing? cs = some (n, rest)) :
    List.replicate n ')' ++ rest = cs := by
  simp only [closing?] at h
  split at h
  · simp only [Option.some.injEq, Prod.mk.injEq] at h
    obtain ⟨rfl, rfl⟩ := h
    have hall : ∀ c ∈ cs.takeWhile (· == ')'), c = ')' := fun c hc =>
      beq_iff_eq.mp (List.all_eq_true.mp List.all_takeWhile c hc)
    rw [← List.eq_replicate_iff.mpr ⟨rfl, hall⟩, List.takeWhile_append_dropWhile]
  · cases h

/-- The piece with a lexeme, if it ends behind it. -/
def tailWith (lexeme : Option (List Char)) (rest : List Char) : Option Tail :=
  (closing? rest).map fun (closing, rest) => ⟨lexeme, closing, rest⟩

/-! ## 2. Text literals -/

/-- A text cut at its first unescaped quote, which is dropped. -/
def cutAtQuote (q : Char) (escaped : Bool) : List Char → Option (List Char × List Char)
  | [] => none
  | c :: cs =>
    if c == q && !escaped then some ([], cs)
    else (cutAtQuote q (escapesNext escaped c) cs).map fun (body, rest) => (c :: body, rest)

theorem cutAtQuote_append {q : Char} {escaped : Bool} {cs body rest : List Char}
    (h : cutAtQuote q escaped cs = some (body, rest)) : body ++ q :: rest = cs := by
  induction cs generalizing escaped body with
  | nil => cases h
  | cons c cs ih =>
    simp only [cutAtQuote] at h
    split at h
    · rename_i hc
      simp only [Bool.and_eq_true, beq_iff_eq] at hc
      simp only [Option.some.injEq, Prod.mk.injEq] at h
      obtain ⟨rfl, rfl⟩ := h
      rw [hc.1, List.nil_append]
    · obtain ⟨⟨b, r⟩, hb, he⟩ := Option.map_eq_some_iff.mp h
      simp only [Prod.mk.injEq] at he
      obtain ⟨rfl, rfl⟩ := he
      rw [List.cons_append, ih hb]

/-- The body of the literal that ends at the first quote, escaped or not, behind which the piece
    ends, and the piece behind the literal. -/
def cutAtAnyQuote (q : Char) : List Char → Option (List Char × Nat × List Char)
  | [] => none
  | c :: cs =>
    match if c == q then closing? cs else none with
    | some (closing, rest) => some ([], closing, rest)
    | none => (cutAtAnyQuote q cs).map fun (body, more) => (c :: body, more)

/-- The piece whose operand is a literal between quotes `q`, given the text behind the first. The
    literal ends at the first unescaped quote if the piece ends behind it; otherwise it ends at the
    first quote where the piece does, and is found faulty later. -/
def literalTail (q : Char) (cs : List Char) : Option Tail :=
  let proper : Option Tail :=
    (cutAtQuote q false cs).bind fun (body, rest) => tailWith (some (q :: body ++ [q])) rest
  proper <|> (cutAtAnyQuote q cs).map fun (body, closing, rest) =>
    ⟨some (q :: body ++ [q]), closing, rest⟩

/-! ## 3. Words -/

/-- The characters up to a blank or a closing bracket. -/
def word (cs : List Char) : List Char := cs.takeWhile fun c => !isBlank c && c != ')'

/-- The text behind the word. -/
def afterWord (cs : List Char) : List Char := cs.dropWhile fun c => !isBlank c && c != ')'

/-- The piece whose operand is the word at the front, if the word has a form. -/
def wordTail (form : List Char → Bool) (cs : List Char) : Option Tail :=
  if form (word cs) then tailWith (some (word cs)) (afterWord cs) else none

/-- Is the word a number or a truth value? -/
def isLiteralWord (cs : List Char) : Bool := Number.isLiteral cs || (readTruth? cs).isSome

/-- The rest of a piece behind its lead, where it begins with a text literal. -/
def quotedTail : List Char → Option Tail
  | '\'' :: ds => literalTail '\'' ds
  | '"' :: ds => literalTail '"' ds
  | _ => none

/-- The rest of a piece behind its lead: with a text literal, with another literal, with a name, or
    with no operand. -/
def pieceTail (cs : List Char) : Option Tail :=
  quotedTail cs <|> wordTail isLiteralWord cs <|> wordTail isPlainName cs <|> tailWith none cs

/-! ## 4. Leads -/

/-- The first try that leaves a whole piece, for the text and for each place behind it that a lead
    could reach. At a place a part of the lead is tried before the lead is ended there. -/
def firstTry {α : Type} (parts : List (List Char)) (finish : List Char → Option α) :
    List Char → List (Option α)
  | [] => [finish []]
  | c :: cs =>
    if parts.any (·.contains c) then
      let later := firstTry parts finish cs
      let longer := parts.findSome? fun part =>
        if part.isPrefixOf (c :: cs) then (later[part.length - 1]?).join else none
      (longer <|> finish (c :: cs)) :: later
    else [finish (c :: cs)]

/-- A piece: its lead, and what stands behind it. -/
structure Piece where
  lead : List Char
  tail : Tail
deriving DecidableEq

/-- The piece at the front of a text, if there is one. `parts` are the parts a lead is made of. -/
def Piece.read? (parts : List (List Char)) (finish : List Char → Option Tail) (cs : List Char) :
    Option Piece :=
  let finishHere (ds : List Char) : Option (List Char × Tail) :=
    (finish ds).map fun tail => (ds, tail)
  ((firstTry parts finishHere cs).head?.join).map fun (ds, tail) =>
    ⟨cs.take (cs.length - ds.length), tail⟩

end Verdict
