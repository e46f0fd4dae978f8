import Mathlib.Algebra.Group.Nat.Defs
import Verdict.Number.Shortest
import Verdict.Proofs.Reading

/-!
# Number literals and the numbers they stand for

A number literal is a NUMERAL behind a minus or none: digits with at most one point, with a digit on
one side of the point at least (`IsNumeral`). Every number literal has a value, and the texts numbers
are written by are number literals that read back as the same number, for every finite number and
both zeros.

A number is written by a decimal that reads back, so the way from the number to the decimal needs no
argument about which decimal is the shortest. What has to be shown is that nothing is lost on the way
from the decimal to its digits: a trailing zero that is left out scales the coefficient and the power
of ten alike, and the nearest magnitude depends on their quotient alone (`nearest_scale`).

* `isLiteral_iff` -- the form of number literals.
* `read?_of_isLiteral` -- every number literal has a value.
* `read?_write` -- the text of a finite number reads back.
-/

namespace Verdict

/-! ## 1. The form -/

theorem toNat_of_isDigit {c : Char} (h : c.isDigit = true) : 48 ≤ c.toNat ∧ c.toNat ≤ 57 := by
  have hc := Bool.and_eq_true_iff.mp h
  have hlow := of_decide_eq_true hc.1
  have hhigh := of_decide_eq_true hc.2
  exact ⟨UInt32.le_iff_toNat_le.mp hlow, UInt32.le_iff_toNat_le.mp hhigh⟩

theorem toNat_of_isAlpha {c : Char} (h : c.isAlpha = true) :
    65 ≤ c.toNat ∧ c.toNat ≤ 90 ∨ 97 ≤ c.toNat ∧ c.toNat ≤ 122 := by
  rcases Bool.or_eq_true_iff.mp h with h | h
  · have hc := of_decide_eq_true h
    exact .inl ⟨UInt32.le_iff_toNat_le.mp hc.1, UInt32.le_iff_toNat_le.mp hc.2⟩
  · have hc := Bool.and_eq_true_iff.mp h
    have hlow := of_decide_eq_true hc.1
    have hhigh := of_decide_eq_true hc.2
    exact .inr ⟨UInt32.le_iff_toNat_le.mp hlow, UInt32.le_iff_toNat_le.mp hhigh⟩

/-- Digits only. -/
def AllDigits (cs : List Char) : Prop := ∀ c ∈ cs, c.isDigit = true

/-- Digits, and maybe a point among them or at one end. -/
inductive IsNumeral : List Char → Prop
  | whole {digits : List Char} (hd : AllDigits digits) (hne : digits ≠ []) : IsNumeral digits
  | point {digits fraction : List Char} (hd : AllDigits digits) (hf : AllDigits fraction)
      (hne : digits ++ fraction ≠ []) : IsNumeral (digits ++ '.' :: fraction)

theorem digit_or_point_of_isNumeral {c : Char} {cs : List Char} (h : IsNumeral cs) (hc : c ∈ cs) :
    c.isDigit = true ∨ c = '.' := by
  cases h with
  | whole hd => exact .inl (hd c hc)
  | point hd hf =>
    rcases List.mem_append.mp hc with hc | hc
    · exact .inl (hd c hc)
    · rcases List.mem_cons.mp hc with hc | hc
      · exact .inr hc
      · exact .inl (hf c hc)

theorem exists_digit_of_isNumeral {cs : List Char} (h : IsNumeral cs) :
    ∃ c ∈ cs, c.isDigit = true := by
  cases h with
  | whole hd hne =>
    obtain ⟨c, hc⟩ := List.exists_mem_of_ne_nil _ hne
    exact ⟨c, hc, hd c hc⟩
  | point hd hf hne =>
    obtain ⟨c, hc⟩ := List.exists_mem_of_ne_nil _ hne
    rcases List.mem_append.mp hc with hc | hc
    · exact ⟨c, List.mem_append_left _ hc, hd c hc⟩
    · exact ⟨c, List.mem_append_right _ (List.mem_cons_of_mem _ hc), hf c hc⟩

/-- Where the digits of a text end. -/
theorem digits_append {digits rest : List Char} (hd : AllDigits digits)
    (hr : ∀ c, rest.head? = some c → c.isDigit = false) :
    (digits ++ rest).takeWhile Char.isDigit = digits ∧
      (digits ++ rest).dropWhile Char.isDigit = rest := cut_append hd hr

theorem digits_all {digits : List Char} (hd : AllDigits digits) :
    digits.takeWhile Char.isDigit = digits ∧ digits.dropWhile Char.isDigit = [] := by
  have hcut : (digits ++ []).takeWhile Char.isDigit = digits ∧
      (digits ++ []).dropWhile Char.isDigit = [] := digits_append hd nofun
  rw [List.append_nil] at hcut
  exact hcut

theorem digits_point {digits : List Char} (hd : AllDigits digits) (fraction : List Char) :
    (digits ++ '.' :: fraction).takeWhile Char.isDigit = digits ∧
      (digits ++ '.' :: fraction).dropWhile Char.isDigit = '.' :: fraction := by
  refine digits_append hd fun c hc => ?_
  rw [← Option.some.inj hc]
  decide

namespace Number

/-- Does a text without a sign have the form of a literal? -/
def isBody (body : List Char) : Bool :=
  match body.takeWhile Char.isDigit, body.dropWhile Char.isDigit with
  | [], '.' :: fraction => !fraction.isEmpty && fraction.all Char.isDigit
  | _ :: _, [] => true
  | _ :: _, '.' :: fraction => fraction.all Char.isDigit
  | _, _ => false

theorem isBody_iff (body : List Char) : isBody body = true ↔ IsNumeral body := by
  constructor
  · intro h
    have happ := List.takeWhile_append_dropWhile (p := Char.isDigit) (l := body)
    have hd : AllDigits (body.takeWhile Char.isDigit) := List.all_eq_true.mp List.all_takeWhile
    rw [← happ]
    unfold isBody at h
    split at h
    · rename_i fraction ht hr
      simp only [Bool.and_eq_true, Bool.not_eq_true', List.isEmpty_eq_false_iff] at h
      rw [ht, hr]
      exact .point (by rw [← ht]; exact hd) (List.all_eq_true.mp h.2) h.1
    · rename_i c digits ht hr
      rw [hr, List.append_nil]
      exact .whole hd (by rw [ht]; exact List.cons_ne_nil _ _)
    · rename_i c digits fraction ht hr
      rw [hr]
      refine .point hd (List.all_eq_true.mp h) ?_
      rw [ht]
      exact List.cons_ne_nil _ _
    · cases h
  · intro h
    unfold isBody
    cases h with
    | whole hd hne =>
      rw [(digits_all hd).1, (digits_all hd).2]
      cases body with
      | nil => exact absurd rfl hne
      | cons c digits => rfl
    | @point digits fraction hd hf hne =>
      rw [(digits_point hd fraction).1, (digits_point hd fraction).2]
      cases digits with
      | nil =>
        cases fraction with
        | nil => exact absurd rfl hne
        | cons c fraction => exact List.all_eq_true.mpr hf
      | cons c digits => exact List.all_eq_true.mpr hf

/-- The minus or none in front of a text. -/
def sign (negative : Bool) : List Char := if negative then ['-'] else []

theorem isLiteral_of_head? {cs : List Char} (h : cs.head? ≠ some '-') :
    isLiteral cs = isBody cs := by
  unfold isLiteral
  split
  · exact absurd rfl h
  · rfl

theorem head?_ne_of_isNumeral {cs : List Char} (h : IsNumeral cs) : cs.head? ≠ some '-' := by
  intro hm
  rcases digit_or_point_of_isNumeral h (List.mem_of_head? hm) with hc | hc
  · exact absurd hc (by decide)
  · exact absurd hc (by decide)

/-- **The form of number literals.** -/
theorem isLiteral_iff (cs : List Char) :
    isLiteral cs = true ↔ ∃ negative body, cs = sign negative ++ body ∧ IsNumeral body := by
  constructor
  · intro h
    by_cases hm : cs.head? = some '-'
    · obtain ⟨ds, rfl⟩ := List.head?_eq_some_iff.mp hm
      exact ⟨true, ds, rfl, (isBody_iff ds).mp h⟩
    · rw [isLiteral_of_head? hm] at h
      exact ⟨false, cs, rfl, (isBody_iff cs).mp h⟩
  · intro ⟨negative, body, hcs, hb⟩
    rw [hcs]
    cases negative with
    | true => exact (isBody_iff body).mpr hb
    | false =>
      show isLiteral body = true
      rw [isLiteral_of_head? (head?_ne_of_isNumeral hb)]
      exact (isBody_iff body).mpr hb

theorem head?_of_isLiteral {cs : List Char} (h : isLiteral cs = true) {c : Char}
    (hc : cs.head? = some c) : c.isDigit = true ∨ c = '-' ∨ c = '.' := by
  obtain ⟨negative, body, rfl, hb⟩ := (isLiteral_iff cs).mp h
  cases negative with
  | true => exact .inr (.inl (Option.some.inj hc).symm)
  | false => exact (digit_or_point_of_isNumeral hb (List.mem_of_head? hc)).imp_right .inr

end Number

/-! ## 2. The value -/

namespace Decimal

theorem read?_whole {digits : List Char} (hd : AllDigits digits) (hne : digits ≠ []) :
    read? digits = some ⟨Nat.ofDigitChars 10 digits 0, 0⟩ := by
  have hcut := digits_all hd
  have hempty : digits.isEmpty = false := List.isEmpty_eq_false_iff.mpr hne
  simp only [read?, hcut.1, hcut.2, hempty, Bool.false_and, Bool.false_eq_true, ↓reduceIte,
    readExponent?, Option.map_some, List.append_nil, List.length_nil]
  rfl

theorem read?_point {digits fraction : List Char} (hd : AllDigits digits) (hf : AllDigits fraction)
    (hne : digits ++ fraction ≠ []) :
    read? (digits ++ '.' :: fraction)
      = some ⟨Nat.ofDigitChars 10 (digits ++ fraction) 0, -fraction.length⟩ := by
  have hcut := digits_point hd fraction
  have hcut' := digits_all hf
  have hempty : (digits.isEmpty && fraction.isEmpty) = false := by
    rw [Bool.eq_false_iff, ne_eq, Bool.and_eq_true, List.isEmpty_iff, List.isEmpty_iff,
      ← List.append_eq_nil_iff]
    exact hne
  simp only [read?, hcut.1, hcut.2, hcut'.1, hcut'.2, hempty, Bool.false_eq_true, ↓reduceIte,
    readExponent?, Option.map_some, Int.zero_sub]

theorem read?_of_isNumeral {body : List Char} (h : IsNumeral body) : (read? body).isSome := by
  cases h with
  | whole hd hne => rw [read?_whole hd hne]; rfl
  | point hd hf hne => rw [read?_point hd hf hne]; rfl

end Decimal

namespace Number

theorem toLower_eq_self {c : Char} (h : c.isDigit = true ∨ c = '.') : c.toLower = c := by
  rcases h with h | rfl
  · have hupper : ¬ (c.val ≥ 'A'.val ∧ c.val ≤ 'Z'.val) := by
      intro hu
      have hA : 65 ≤ c.toNat := UInt32.le_iff_toNat_le.mp hu.1
      have hd := toNat_of_isDigit h
      omega
    exact dif_neg hupper
  · rfl

/-- A numeral is none of the words that numbers may be named by. -/
theorem map_toLower_ne {body : List Char} (h : IsNumeral body) {d : Char} (ds : List Char)
    (hd : d.isDigit = false) (hp : d ≠ '.') : (body.map Char.toLower == d :: ds) = false := by
  refine beq_eq_false_iff_ne.mpr fun he => ?_
  cases body with
  | nil => cases he
  | cons c cs =>
    have hc := digit_or_point_of_isNumeral h List.mem_cons_self
    have hcd : c = d := by rw [← toLower_eq_self hc, (List.cons.inj he).1]
    rw [hcd, hd] at hc
    rcases hc with hc | hc
    · cases hc
    · exact hp hc

/-- **A numeral behind a minus or none is read as its decimal.** -/
theorem read?_sign {body : List Char} (h : IsNumeral body) (negative : Bool) :
    read? (sign negative ++ body) = (Decimal.read? body).map fun d => .real negative d.nearest := by
  have hsplit : Decimal.splitSign (sign negative ++ body) = (negative, body) := by
    cases negative with
    | true => rfl
    | false =>
      show Decimal.splitSign body = (false, body)
      unfold Decimal.splitSign
      split
      · exact absurd rfl (head?_ne_of_isNumeral h)
      · rcases digit_or_point_of_isNumeral h List.mem_cons_self with hc | hc
        · exact absurd hc (by decide)
        · exact absurd hc (by decide)
      · rfl
  have hinf : (body.map Char.toLower == "inf".toList) = false :=
    map_toLower_ne h _ (by decide) (by decide)
  have hinfinity : (body.map Char.toLower == "infinity".toList) = false :=
    map_toLower_ne h _ (by decide) (by decide)
  have hnan : (body.map Char.toLower == "nan".toList) = false :=
    map_toLower_ne h _ (by decide) (by decide)
  simp only [read?, hsplit, hinf, hinfinity, hnan, Bool.or_self, Bool.false_eq_true, ↓reduceIte]

theorem read?_of_isLiteral {cs : List Char} (h : isLiteral cs = true) : (read? cs).isSome := by
  obtain ⟨negative, body, rfl, hb⟩ := (isLiteral_iff cs).mp h
  rw [read?_sign hb, Option.isSome_map]
  exact Decimal.read?_of_isNumeral hb

/-- A number literal is read as a magnitude with a sign. -/
theorem exists_real_of_read? {cs : List Char} (h : isLiteral cs = true) {x : Number}
    (hx : read? cs = some x) : ∃ negative m, x = .real negative m := by
  obtain ⟨negative, body, rfl, hb⟩ := (isLiteral_iff cs).mp h
  rw [read?_sign hb] at hx
  obtain ⟨d, -, rfl⟩ := Option.map_eq_some_iff.mp hx
  exact ⟨negative, d.nearest, rfl⟩

end Number

/-! ## 3. The nearest magnitude -/

namespace Magnitude

theorem roundDiv_mul_right (num den : Nat) {k : Nat} (hk : 0 < k) :
    roundDiv (num * k) (den * k) = roundDiv num den := by
  have htwice : 2 * (num % den * k) = 2 * (num % den) * k := (Nat.mul_assoc _ _ _).symm
  simp only [roundDiv, Nat.mul_div_mul_right _ _ hk, Nat.mul_mod_mul_right, htwice,
    Nat.mul_lt_mul_right hk]

theorem roundDiv_mul_self (num : Nat) {k : Nat} (hk : 0 < k) : roundDiv (num * k) k = num := by
  have hdiv : num * k / k = num := Nat.mul_div_cancel num hk
  have hmod : num * k % k = 0 := Nat.mul_mod_left num k
  simp only [roundDiv, hdiv, hmod, Nat.mul_zero, if_pos hk]

/-- **Only the quotient counts.** -/
theorem nearest_scale (num den : Nat) {k : Nat} (hk : 0 < k) :
    nearest (num * k) (den * k) = nearest num den := by
  have hshift : ∀ n shift, (n * k) <<< shift = n <<< shift * k := by
    intro n shift
    rw [Nat.shiftLeft_eq, Nat.shiftLeft_eq]
    exact Nat.mul_right_comm _ _ _
  simp only [nearest, hshift, Nat.mul_div_mul_right _ _ hk, roundDiv_mul_right _ _ hk]

theorem two_mul_shiftLeft_lt (c k : Nat) : 2 * (c <<< k) < 2 ^ (c.log2 + 1 + k + 1) := by
  have hlt : c * 2 ^ k < 2 ^ (c.log2 + 1) * 2 ^ k :=
    Nat.mul_lt_mul_of_pos_right Nat.lt_log2_self (Nat.two_pow_pos k)
  rw [Nat.shiftLeft_eq, Nat.pow_succ, Nat.pow_add, Nat.mul_comm]
  exact Nat.mul_lt_mul_of_pos_right hlt Nat.two_pos

/-- Below half of the least magnitude there is nothing but zero. -/
theorem nearest_eq_zero {num den : Nat} (h : 2 * (num <<< 1074) < den) :
    nearest num den = zero := by
  have hlt : num <<< 1074 < den :=
    Nat.lt_of_le_of_lt (Nat.le_mul_of_pos_left _ Nat.two_pos) h
  have hlog : Nat.log2 0 - 52 = 0 := by decide
  have hround : roundDiv (num <<< 1074) den = 0 := by
    rw [roundDiv, Nat.div_eq_of_lt hlt, Nat.mod_eq_of_lt hlt]
    exact if_pos h
  simp only [nearest, Nat.div_eq_of_lt hlt, hlog, Nat.shiftLeft_zero, Nat.zero_mul, Nat.zero_add,
    hround]
  rfl

theorem nearest_zero {den : Nat} (h : 0 < den) : nearest 0 den = zero :=
  nearest_eq_zero (by simp only [Nat.zero_shiftLeft, Nat.mul_zero, h])

theorem log2_units (m : Magnitude) : m.units.log2 - 52 = m.shift := by
  have hsig : m.significand < 2 ^ 53 := m.significand_lt
  have hrank := m.shift_significand
  by_cases hs : m.shift = 0
  · -- the first two blocks: the significand is the magnitude, and no block has to be found
    have hunits : m.units = m.significand := by rw [units, hs, Nat.shiftLeft_zero]
    rw [hs, hunits]
    by_cases hz : m.significand = 0
    · rw [hz]
      decide
    · have := (Nat.log2_lt hz).mpr hsig
      omega
  · have hlow : 2 ^ 52 ≤ m.significand := by
      simp only [shift, blockSize] at hs hrank
      omega
    have hlog : m.units.log2 = 52 + m.shift := by
      have hpos : 0 < 2 ^ m.shift := Nat.two_pow_pos _
      refine (Nat.log2_eq_iff ?_).mpr ⟨?_, ?_⟩
      · rw [units, Nat.shiftLeft_eq]
        exact Nat.mul_ne_zero (by omega) (by omega)
      · rw [Nat.pow_add, units, Nat.shiftLeft_eq]
        exact Nat.mul_le_mul_right _ hlow
      · rw [units, Nat.shiftLeft_eq, Nat.add_right_comm, Nat.pow_add]
        exact Nat.mul_lt_mul_of_pos_right hsig hpos
    rw [hlog, Nat.add_sub_cancel_left]

theorem ofRank_rank (m : Magnitude) : ofRank m.rank = m := by
  obtain ⟨rank, hle⟩ := m
  simp only [ofRank, Nat.min_eq_left hle]

theorem roundDiv_units (m : Magnitude) {k : Nat} (hk : 0 < k) :
    roundDiv (m.units * k) (k <<< m.shift) = m.significand := by
  rw [units, Nat.shiftLeft_eq, Nat.shiftLeft_eq, Nat.mul_assoc, Nat.mul_comm k]
  exact roundDiv_mul_self _ (Nat.mul_pos (Nat.two_pow_pos m.shift) hk)

/-- **A magnitude is the nearest one to itself.** -/
theorem nearest_units (m : Magnitude) {unit : Nat} (hpos : 0 < unit)
    (hunit : m.units <<< 1074 = m.units * unit) : nearest m.units unit = m := by
  simp only [nearest, hunit, Nat.mul_div_cancel _ hpos, log2_units, roundDiv_units m hpos,
    shift_significand, ofRank_rank]

end Magnitude

/-! ## 4. Decimals and their digits -/

namespace Decimal

theorem nearest_whole (c : Nat) : (⟨c, 0⟩ : Decimal).nearest = .nearest c 1 := by
  by_cases hc : c = 0
  · rw [hc, Magnitude.nearest_zero Nat.one_pos]
    rfl
  · have hpow : c * Nat.pow 10 0 = c := Nat.mul_one c
    show (if c = 0 then _ else if 400 < 0 then _ else Magnitude.nearest (c * Nat.pow 10 0) 1) = _
    rw [if_neg hc, if_neg (Nat.not_lt_zero _), hpow]

/-- The shortcut for decimals below half of the least magnitude is none but that: a shortcut. -/
theorem nearest_negSucc (c e : Nat) :
    (⟨c, .negSucc e⟩ : Decimal).nearest = .nearest c (10 ^ (e + 1)) := by
  have hten : 2 ^ (3 * (e + 1)) ≤ 10 ^ (e + 1) := by
    rw [Nat.pow_mul]
    exact Nat.pow_le_pow_left (by decide) _
  show (if c = 0 then _ else
    if c.log2 + 1100 < 3 * (e + 1) then _ else Magnitude.nearest c (10 ^ (e + 1))) = _
  by_cases hc : c = 0
  · rw [if_pos hc, hc, Magnitude.nearest_zero (Nat.pow_pos (by decide))]
  · rw [if_neg hc]
    by_cases hs : c.log2 + 1100 < 3 * (e + 1)
    · have hlt : 2 * (c <<< 1074) < 10 ^ (e + 1) := by
        refine Nat.lt_of_lt_of_le (Magnitude.two_mul_shiftLeft_lt c 1074) (Nat.le_trans ?_ hten)
        exact Nat.pow_le_pow_right (by decide) (by omega)
      rw [if_pos hs, Magnitude.nearest_eq_zero hlt]
    · rw [if_neg hs]

theorem allDigits_toDigits (n : Nat) : AllDigits (Nat.toDigits 10 n) :=
  fun _ hc => Nat.isDigit_of_mem_toDigits (by decide) (by decide) hc

/-- The places behind the point, with the zeros that end them put back. -/
theorem fractionDigits_append {places n : Nat} (hp : 0 < places) (hn : n < 10 ^ places) :
    ∃ k, AllDigits (fractionDigits places n) ∧ (fractionDigits places n).length + k = places ∧
      Nat.ofDigitChars 10 (fractionDigits places n) 0 * 10 ^ k = n := by
  have hlen := (Nat.length_toDigits_le_iff (b := 10) (by decide) hp).mpr hn
  let padded := List.replicate (places - (Nat.toDigits 10 n).length) '0' ++ Nat.toDigits 10 n
  have hpadded : padded.length = places := by
    rw [List.length_append, List.length_replicate, Nat.sub_add_cancel hlen]
  have hvalue : Nat.ofDigitChars 10 padded 0 = n := by
    rw [Nat.ofDigitChars_append, Nat.ofDigitChars_replicate_zero, Nat.mul_zero,
      Nat.ofDigitChars_ten_toDigits]
  have hdigits : AllDigits padded := by
    intro c hc
    rcases List.mem_append.mp hc with hc | hc
    · rw [List.eq_of_mem_replicate hc]
      decide
    · exact allDigits_toDigits n c hc
  have hcut : fractionDigits places n ++ (padded.reverse.takeWhile (· == '0')).reverse = padded := by
    rw [fractionDigits, ← List.reverse_append, List.takeWhile_append_dropWhile, List.reverse_reverse]
  have hzeros : (padded.reverse.takeWhile (· == '0')).reverse
      = List.replicate (padded.reverse.takeWhile (· == '0')).reverse.length '0' := by
    refine List.eq_replicate_iff.mpr ⟨rfl, fun c hc => ?_⟩
    exact beq_iff_eq.mp (List.all_eq_true.mp List.all_takeWhile c (List.mem_reverse.mp hc))
  refine ⟨(padded.reverse.takeWhile (· == '0')).reverse.length, ?_, ?_, ?_⟩
  · intro c hc
    refine hdigits c ?_
    rw [← hcut]
    exact List.mem_append_left _ hc
  · rw [← List.length_append, hcut, hpadded]
  · rw [← hcut, hzeros, Nat.ofDigitChars_append, Nat.ofDigitChars_replicate_zero] at hvalue
    rw [Nat.mul_comm]
    exact hvalue

theorem write_whole (c e : Nat) :
    (⟨c, .ofNat e⟩ : Decimal).write = Nat.toDigits 10 (c * 10 ^ e) := rfl

theorem write_of_fractionDigits_nil {c e : Nat}
    (h : fractionDigits (e + 1) (c % 10 ^ (e + 1)) = []) :
    (⟨c, .negSucc e⟩ : Decimal).write = Nat.toDigits 10 (c / 10 ^ (e + 1)) := by
  simp only [write]
  split
  · rfl
  · rename_i hne
    exact absurd h hne

theorem write_of_fractionDigits_cons {c e : Nat} {f : Char} {fs : List Char}
    (h : fractionDigits (e + 1) (c % 10 ^ (e + 1)) = f :: fs) :
    (⟨c, .negSucc e⟩ : Decimal).write = Nat.toDigits 10 (c / 10 ^ (e + 1)) ++ '.' :: f :: fs := by
  simp only [write]
  split
  · rename_i hnil
    exact absurd (hnil.symm.trans h) (List.cons_ne_nil f fs).symm
  · exact congrArg (_ ++ '.' :: ·) h

/-- The text is a numeral, and this magnitude is the nearest one to the decimal it is read as. -/
def ReadsAs (cs : List Char) (m : Magnitude) : Prop :=
  IsNumeral cs ∧ ∃ d, read? cs = some d ∧ d.nearest = m

theorem readsAs_toDigits (n : Nat) : ReadsAs (Nat.toDigits 10 n) (.nearest n 1) := by
  refine ⟨.whole (allDigits_toDigits n) Nat.toDigits_ne_nil, _,
    read?_whole (allDigits_toDigits n) Nat.toDigits_ne_nil, ?_⟩
  rw [Nat.ofDigitChars_ten_toDigits, nearest_whole]

theorem readsAs_point (n : Nat) {fraction : List Char} (hf : AllDigits fraction)
    (hne : fraction ≠ []) :
    ReadsAs (Nat.toDigits 10 n ++ '.' :: fraction)
      (.nearest (10 ^ fraction.length * n + Nat.ofDigitChars 10 fraction 0)
        (10 ^ fraction.length)) := by
  have hne' : Nat.toDigits 10 n ++ fraction ≠ [] := List.append_ne_nil_of_right_ne_nil _ hne
  refine ⟨.point (allDigits_toDigits n) hf hne', _, read?_point (allDigits_toDigits n) hf hne', ?_⟩
  obtain ⟨f, fs, rfl⟩ := List.exists_cons_of_ne_nil hne
  have hexponent : (-((f :: fs).length : Int)) = Int.negSucc fs.length := rfl
  rw [hexponent, nearest_negSucc, Nat.ofDigitChars_append, Nat.ofDigitChars_ten_toDigits,
    Nat.ofDigitChars_eq_ofDigitChars_zero, List.length_cons]

/-- The zeros left out behind the point scale the coefficient and the power of ten alike. -/
theorem nearest_places {c places zeros value unit : Nat} (hunit : 10 ^ places * 10 ^ zeros = unit)
    (hvalue : value * 10 ^ zeros = c % unit) :
    Magnitude.nearest (10 ^ places * (c / unit) + value) (10 ^ places) = .nearest c unit := by
  have hzeros : 0 < 10 ^ zeros := Nat.pow_pos (by decide)
  rw [← Magnitude.nearest_scale _ _ hzeros, hunit, Nat.add_mul, Nat.mul_right_comm, hunit, hvalue,
    Nat.div_add_mod]

theorem nearest_ofNat {c e : Nat} (h : (⟨c, .ofNat e⟩ : Decimal).nearest ≠ .infinity) :
    (⟨c, .ofNat e⟩ : Decimal).nearest = .nearest (c * 10 ^ e) 1 := by
  by_cases hc : c = 0
  · rw [hc, Nat.zero_mul, Magnitude.nearest_zero Nat.one_pos]
    rfl
  · have hd : (⟨c, .ofNat e⟩ : Decimal).nearest
        = if 400 < e then .infinity else .nearest (c * 10 ^ e) 1 := if_neg hc
    rw [hd] at h ⊢
    by_cases he : 400 < e
    · rw [if_pos he] at h
      exact absurd rfl h
    · rw [if_neg he]

/-- **Written digits lose nothing**: they are a numeral, and the decimal it is read as is as near to
    every magnitude as the one that was written. -/
theorem readsAs_write {d : Decimal} (h : d.nearest ≠ .infinity) : ReadsAs d.write d.nearest := by
  obtain ⟨c, e⟩ := d
  cases e with
  | ofNat e =>
    rw [write_whole, nearest_ofNat h]
    exact readsAs_toDigits _
  | negSucc e =>
    have hunit : 0 < 10 ^ (e + 1) := Nat.pow_pos (by decide)
    obtain ⟨zeros, hf, hlen, hvalue⟩ :=
      fractionDigits_append (Nat.succ_pos e) (Nat.mod_lt c hunit)
    have hpow : 10 ^ (fractionDigits (e + 1) (c % 10 ^ (e + 1))).length * 10 ^ zeros
        = 10 ^ (e + 1) := by
      rw [← Nat.pow_add, hlen]
    rw [nearest_negSucc, ← nearest_places hpow hvalue]
    cases hfr : fractionDigits (e + 1) (c % 10 ^ (e + 1)) with
    | nil =>
      rw [write_of_fractionDigits_nil hfr, List.length_nil, Nat.pow_zero, Nat.one_mul,
        Nat.ofDigitChars_nil, Nat.add_zero]
      exact readsAs_toDigits _
    | cons f fs =>
      rw [write_of_fractionDigits_cons hfr]
      rw [hfr] at hf
      exact readsAs_point _ hf (List.cons_ne_nil f fs)

end Decimal

/-! ## 5. Numbers and their texts -/

namespace Magnitude

/-- The decimal with all places of a magnitude reads back. -/
theorem nearest_exactDecimal (m : Magnitude) : m.exactDecimal.nearest = m := by
  -- the number of places stays a variable, so that no power of it is worked out
  have hplaces : ∀ places k, places = k + 1 → places = 1074 →
      (⟨m.units * Nat.pow 5 places, -(places : Int)⟩ : Decimal).nearest = m := by
    rintro _ k rfl hk
    have hten : 10 ^ (k + 1) = 2 ^ (k + 1) * 5 ^ (k + 1) := Nat.mul_pow 2 5 _
    show (⟨m.units * 5 ^ (k + 1), .negSucc k⟩ : Decimal).nearest = m
    rw [Decimal.nearest_negSucc, hten, nearest_scale _ _ (Nat.pow_pos (by decide))]
    exact m.nearest_units (Nat.two_pow_pos _) (hk ▸ Nat.shiftLeft_eq _ _)
  exact hplaces 1074 1073 rfl rfl

/-- **The decimal a magnitude is written by reads back.** -/
theorem nearest_shortest (m : Magnitude) : m.shortest.nearest = m := by
  unfold shortest
  extract_lets unit lead found
  cases hf : found with
  | none => exact m.nearest_exactDecimal
  | some d =>
    obtain ⟨more, -, hd⟩ := List.exists_of_findSome?_eq_some hf
    have hnearest := List.find?_some hd
    exact beq_iff_eq.mp hnearest

end Magnitude

namespace Number

/-- With a sign, every magnitude but infinity is finite. -/
theorem isFinite_real {negative : Bool} {m : Magnitude} :
    (real negative m).isFinite = true ↔ m ≠ .infinity := by
  have hrank : m.rank = infinityRank ↔ m = .infinity := by
    constructor
    · intro h
      rw [← Magnitude.ofRank_rank m, h]
      rfl
    · intro h
      rw [h]
      rfl
  have hle := m.rank_le
  rw [isFinite, decide_eq_true_eq, ne_eq, ← hrank]
  omega

/-- The text of a finite number is a numeral behind a minus or none, whose decimal reads back. -/
theorem write_eq_sign {x : Number} (h : x.isFinite = true) :
    ∃ negative body d, x.write = sign negative ++ body ∧ IsNumeral body ∧
      Decimal.read? body = some d ∧ x = .real negative d.nearest := by
  cases x with
  | nan => cases h
  | real negative m =>
    have hlt : m.rank < infinityRank := of_decide_eq_true h
    have hzero : AllDigits ['0'] := by
      intro c hc
      rw [List.mem_singleton.mp hc]
      decide
    by_cases hz : m.rank = 0
    · refine ⟨negative, ['0'], ⟨0, 0⟩, ?_, .whole hzero (List.cons_ne_nil _ _), rfl, ?_⟩
      · show (if m.rank = 0 then _ else _) = _
        rw [if_pos hz]
        rfl
      · rw [← Magnitude.ofRank_rank m, hz]
        rfl
    · have hfinite : m.shortest.nearest ≠ .infinity := by
        rw [m.nearest_shortest]
        exact isFinite_real.mp h
      obtain ⟨hbody, d, hd, hnearest⟩ := Decimal.readsAs_write hfinite
      refine ⟨negative, m.shortest.write, d, ?_, hbody, hd, ?_⟩
      · show (if m.rank = 0 then _ else if m.rank = infinityRank then _ else _) = _
        rw [if_neg hz, if_neg (Nat.ne_of_lt hlt)]
        rfl
      · rw [hnearest, m.nearest_shortest]

theorem isLiteral_write {x : Number} (h : x.isFinite = true) : isLiteral x.write = true := by
  obtain ⟨negative, body, d, hw, hb, -⟩ := write_eq_sign h
  exact (isLiteral_iff _).mpr ⟨negative, body, hw, hb⟩

/-- **The text of a finite number reads back**, the sign of a zero included. -/
theorem read?_write {x : Number} (h : x.isFinite = true) : read? x.write = some x := by
  obtain ⟨negative, body, d, hw, hb, hd, hx⟩ := write_eq_sign h
  rw [hw, read?_sign hb, hd, hx]
  rfl

end Number

end Verdict
