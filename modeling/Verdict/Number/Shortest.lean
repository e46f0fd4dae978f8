import Verdict.Number.Decimal

/-!
# The shortest decimal of a number

A number is written with the fewest digits that read back as the same number; of the decimals with
that many digits the nearest one, and of two equally near ones the greater. The digits are written
with all their places (`Decimal.write`), whole numbers without a point.

On the grid of decimals with a given last place a magnitude has two neighbours, the one below (or
at) it and the one above. If any decimal of the grid reads back, one of these two does, so only they
are tried. The exact decimal of a magnitude ends after 1074 places at most and always reads back; it
is what remains if no shorter one did.
-/

namespace Verdict

namespace Magnitude

/-! ## 1. The two neighbours on a decimal grid -/

/-- The power of ten of the first digit of `num / den`. -/
def leadingPlace (num den : Nat) : Int :=
  if den ≤ num then ((Nat.toDigits 10 (num / den)).length : Int) - 1
  else -((Nat.toDigits 10 ((den - 1) / num)).length : Int)

/-- The decimals with last place `10 ^ place` beside `num / den`, the nearer one first. -/
def neighbours (num den : Nat) (place : Int) : List Decimal :=
  let (a, b) :=
    match place with
    | .ofNat p => (num, den * Nat.pow 10 p)
    | .negSucc p => (num * Nat.pow 10 (p + 1), den)
  let below : Decimal := ⟨a / b, place⟩
  let above : Decimal := ⟨a / b + 1, place⟩
  if a % b = 0 then [below]
  else if b ≤ 2 * (a % b) then [above, below]
  else [below, above]

/-! ## 2. The fewest digits that read back -/

/-- The magnitude as a decimal, to the last place. -/
def exactDecimal (m : Magnitude) : Decimal := ⟨m.units * Nat.pow 5 1074, -1074⟩

/-- The decimal a magnitude is written by. -/
def shortest (m : Magnitude) : Decimal :=
  let unit := 1 <<< 1074
  let lead := leadingPlace m.units unit
  let found := (List.range 17).findSome? fun (more : Nat) =>
    (neighbours m.units unit (lead - more)).find? fun d => d.nearest == m
  found.getD m.exactDecimal

end Magnitude

/-! ## 3. Number texts -/

namespace Number

/-- The text of a number: the one that is no number has a name and no sign, the others have a minus
    where they are negative, also the negative zero. -/
def write : Number → List Char
  | nan => "NaN".toList
  | real negative m =>
    let sign := if negative then ['-'] else []
    if m.rank = 0 then sign ++ ['0']
    else if m.rank = infinityRank then sign ++ "inf".toList
    else sign ++ m.shortest.write

/-- Is the text a number literal: digits `0` to `9` with at most one point, behind a minus or
    none? -/
def isLiteral (cs : List Char) : Bool :=
  let body := match cs with
    | '-' :: ds => ds
    | ds => ds
  match body.takeWhile Char.isDigit, body.dropWhile Char.isDigit with
  | [], '.' :: fraction => !fraction.isEmpty && fraction.all Char.isDigit
  | _ :: _, [] => true
  | _ :: _, '.' :: fraction => fraction.all Char.isDigit
  | _, _ => false

end Number

end Verdict
