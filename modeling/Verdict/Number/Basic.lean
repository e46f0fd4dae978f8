/-!
# Numbers

Number literals and the numeric readings of variables are the binary floating-point numbers of 64
bits, with two zeros, two infinities and one value that is no number.

A number without its sign is kept as its RANK among the magnitudes: 0 is zero, 1 the least positive
magnitude `2 ^ (-1074)`, and so on up to the rank of infinity. Magnitudes grow with the rank, so
comparing numbers is comparing ranks, and the neighbours of a magnitude are the ranks beside it.
Within a block of `2 ^ 52` ranks the step is constant: it is `2 ^ shift` units of `2 ^ (-1074)`.

* `shift_significand`: a rank is its block and its place in the block.
* `compare?_swap`: comparing the other way round gives the other answer, or none alike.
-/

namespace Verdict

/-! ## 1. Magnitudes -/

/-- The ranks of a block: `2 ^ 52`. -/
def blockSize : Nat := 0x10000000000000

/-- The rank of infinity: one more than the rank of the greatest finite magnitude. -/
def infinityRank : Nat := 0x7FF * blockSize

/-- A number without its sign, by its rank. -/
structure Magnitude where
  rank : Nat
  rank_le : rank ≤ infinityRank
deriving DecidableEq

namespace Magnitude

/-- The magnitude of a rank, infinity for all ranks past the last. -/
def ofRank (rank : Nat) : Magnitude := ⟨min rank infinityRank, Nat.min_le_right _ _⟩

def zero : Magnitude := ofRank 0

def infinity : Magnitude := ofRank infinityRank

/-- Units of `2 ^ (-1074)` between neighbours, as a power of two: zero in the first two blocks, one
    more in each block after them. -/
def shift (m : Magnitude) : Nat := m.rank / blockSize - 1

/-- How many steps of its block make up the magnitude. -/
def significand (m : Magnitude) : Nat := m.rank - m.shift * blockSize

/-- The magnitude in units of `2 ^ (-1074)`. -/
def units (m : Magnitude) : Nat := m.significand <<< m.shift

theorem shift_significand (m : Magnitude) : m.shift * blockSize + m.significand = m.rank := by
  simp only [significand, shift, blockSize]
  omega

theorem significand_lt (m : Magnitude) : m.significand < 2 * blockSize := by
  simp only [significand, shift, blockSize]
  omega

/-! ## 2. The nearest magnitude -/

/-- The quotient rounded to the nearest number, a half to the even one. -/
def roundDiv (num den : Nat) : Nat :=
  let quotient := num / den
  let twice := 2 * (num % den)
  if twice < den then quotient
  else if den < twice then quotient + 1
  else quotient + quotient % 2

/-- The magnitude nearest to `num / den`, of two equally near ones that of even rank. The block is
    found first; rounding up past its end lands on the first rank of the next one. -/
def nearest (num den : Nat) : Magnitude :=
  let units := num <<< 1074
  let shift := (units / den).log2 - 52
  ofRank (shift * blockSize + roundDiv units (den <<< shift))

end Magnitude

/-! ## 3. Signed numbers -/

/-- A number: none at all, or a magnitude with a sign. Zero has both signs. -/
inductive Number
  | nan
  | real (negative : Bool) (magnitude : Magnitude)
deriving DecidableEq

namespace Number

/-- The place of a signed magnitude on the line; both zeros are at 0. -/
def place (negative : Bool) (m : Magnitude) : Int := if negative then -(m.rank : Int) else m.rank

/-- The order of two numbers; `nan` has none with anything. -/
def compare? : Number → Number → Option Ordering
  | real s m, real t n => some (compare (place s m) (place t n))
  | _, _ => none

/-- Are the numbers at the same place? The zeros are, `nan` is not even at its own. -/
def sameAs (x y : Number) : Bool := compare? x y == some .eq

/-- Is the number a magnitude below infinity? -/
def isFinite : Number → Bool
  | nan => false
  | real _ m => m.rank < infinityRank

theorem compare?_swap (x y : Number) : compare? y x = (compare? x y).map Ordering.swap := by
  cases x with
  | nan => cases y <;> rfl
  | real s m =>
    cases y with
    | nan => rfl
    | real t n =>
      have h : compare (place t n) (place s m) = (compare (place s m) (place t n)).swap :=
        Std.OrientedCmp.eq_swap
      simp only [compare?, Option.map_some, h]

theorem sameAs_comm (x y : Number) : x.sameAs y = y.sameAs x := by
  rw [sameAs, sameAs, compare?_swap x y]
  cases x.compare? y with
  | none => rfl
  | some o => cases o <;> rfl

end Number

end Verdict
