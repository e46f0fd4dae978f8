import Verdict.Number.Basic

/-!
# Decimals

A decimal is a whole coefficient times a power of ten. This file READS the decimals of number texts
and WRITES a decimal with all its places, never with an exponent.

The grammar of a number text: a sign or none; then `inf`, `infinity` or `nan` in any case, or digits
with at most one point (at least one digit on either side of it) and an exponent or none. Nothing
else is a number: no blanks, no other digits than `0` to `9`.
-/

namespace Verdict

/-- The number `coefficient · 10 ^ exponent`. -/
structure Decimal where
  coefficient : Nat
  exponent : Int
deriving DecidableEq

namespace Decimal

/-! ## 1. The nearest magnitude -/

/-- The magnitude nearest to a decimal. The two bounds only save work: past them the decimal lies
    above every finite magnitude (`10 ^ 400`), or below half of the least one. -/
def nearest (d : Decimal) : Magnitude :=
  if d.coefficient = 0 then .zero
  else
    match d.exponent with
    | .ofNat e => if 400 < e then .infinity else .nearest (d.coefficient * Nat.pow 10 e) 1
    | .negSucc e =>
      if d.coefficient.log2 + 1100 < 3 * (e + 1) then .zero
      else .nearest d.coefficient (Nat.pow 10 (e + 1))

/-! ## 2. Writing -/

/-- The digits of the places behind the point, without the zeros that end them. -/
def fractionDigits (places n : Nat) : List Char :=
  let digits := Nat.toDigits 10 n
  let padded := List.replicate (places - digits.length) '0' ++ digits
  (padded.reverse.dropWhile (· == '0')).reverse

/-- The decimal with all its places: at least one digit before the point, and no point without a
    digit other than zero after it. -/
def write (d : Decimal) : List Char :=
  match d.exponent with
  | .ofNat e => Nat.toDigits 10 (d.coefficient * Nat.pow 10 e)
  | .negSucc e =>
    let unit := Nat.pow 10 (e + 1)
    let whole := Nat.toDigits 10 (d.coefficient / unit)
    match fractionDigits (e + 1) (d.coefficient % unit) with
    | [] => whole
    | fraction => whole ++ '.' :: fraction

/-! ## 3. Reading -/

/-- A sign in front of a text: whether it is a minus, and the text behind it. -/
def splitSign : List Char → Bool × List Char
  | '-' :: cs => (true, cs)
  | '+' :: cs => (false, cs)
  | cs => (false, cs)

/-- The power of ten that an exponent part stands for: none, or `e` and a whole number. -/
def readExponent? : List Char → Option Int
  | [] => some 0
  | c :: cs =>
    if c == 'e' || c == 'E' then
      let (negative, digits) := splitSign cs
      if digits.isEmpty || !digits.all Char.isDigit then none
      else
        let n : Int := Nat.ofDigitChars 10 digits 0
        some (if negative then -n else n)
    else none

/-- Digits with a point and an exponent. -/
def read? (cs : List Char) : Option Decimal :=
  let whole := cs.takeWhile Char.isDigit
  let (fraction, rest) :=
    match cs.dropWhile Char.isDigit with
    | '.' :: ds => (ds.takeWhile Char.isDigit, ds.dropWhile Char.isDigit)
    | ds => ([], ds)
  if whole.isEmpty && fraction.isEmpty then none
  else
    (readExponent? rest).map fun exponent =>
      ⟨Nat.ofDigitChars 10 (whole ++ fraction) 0, exponent - fraction.length⟩

end Decimal

/-! ## 4. Number texts -/

/-- The number a text stands for, if it is a number text. -/
def Number.read? (cs : List Char) : Option Number :=
  let (negative, body) := Decimal.splitSign cs
  let word := body.map Char.toLower
  if word == "inf".toList || word == "infinity".toList then some (.real negative .infinity)
  else if word == "nan".toList then some .nan
  else (Decimal.read? body).map fun d => .real negative d.nearest

end Verdict
