import Stencil.Number.Binary64
import Stencil.Number.Digits
import Mathlib.Algebra.Order.Field.Rat

/-!
# Values of numbers

A finite binary64 number is a rational number, and decimal digits are those of one number only.

- `Binary64.value`: the rational number that a finite binary64 number is;
- `Binary64.whole_of_value_eq`: the numbers whose values are integers;
- `Binary64.negative_abs`, `Binary64.exponentField_abs`, `Binary64.fraction_abs`: a number without its
  sign;
- `signedDecimal_injective`: different integers have different digits or signs.
-/

namespace Stencil.Number

/-! ## Binary64 numbers -/

/-- A power is a quotient of powers with natural exponents. -/
theorem zpow_eq_div {b : ℚ} (hb : b ≠ 0) (k : ℤ) : b ^ k = b ^ k.toNat / b ^ (-k).toNat := by
  rw [← zpow_natCast, ← zpow_natCast, ← zpow_sub₀ hb]
  congr 1
  omega

namespace Binary64

/-- The value of a finite number. -/
def value (x : Binary64) : ℚ := (if x.negative then -1 else 1) * x.significand * 2 ^ x.exponent

variable {x : Binary64}

theorem isNaN_of_isFinite (h : x.isFinite = true) : x.isNaN = false := by
  have hfield : x.exponentField ≠ 2047 := of_decide_eq_true h
  simp [isNaN, hfield]

theorem denominator_pos (x : Binary64) : 0 < x.denominator := Nat.two_pow_pos _

/-- The numerator and the denominator are those of the magnitude. -/
theorem magnitude_eq (x : Binary64) :
    (x.significand : ℚ) * 2 ^ x.exponent = (x.numerator : ℚ) / x.denominator := by
  have hnumerator : x.numerator = x.significand * 2 ^ x.exponent.toNat := rfl
  have hdenominator : x.denominator = 2 ^ (-x.exponent).toNat := rfl
  rw [hnumerator, hdenominator, zpow_eq_div two_ne_zero]
  push_cast
  rw [mul_div_assoc]

theorem value_eq (x : Binary64) :
    x.value = (if x.negative then -1 else 1) * ((x.numerator : ℚ) / x.denominator) := by
  rw [value, mul_assoc, magnitude_eq]

/-- A number whose value is an integer is whole, and truncating it gives that integer. -/
theorem whole_of_value_eq {v : Int} (hfinite : x.isFinite = true) (h : x.value = v) :
    x.isWhole = true ∧ x.truncated = v := by
  have hpos : (x.denominator : ℚ) ≠ 0 := Nat.cast_ne_zero.mpr x.denominator_pos.ne'
  have hmagnitude : (x.numerator : ℚ) / x.denominator =
      ((if x.negative then -v else v : Int) : ℚ) := by
    rw [value_eq] at h
    cases hnegative : x.negative with
    | true =>
      rw [hnegative, if_pos rfl] at h
      rw [if_pos rfl, Int.cast_neg, ← h, neg_one_mul, neg_neg]
    | false =>
      rw [hnegative, if_neg Bool.false_ne_true] at h
      rw [if_neg Bool.false_ne_true, ← h, one_mul]
  -- the numerator is a multiple of the denominator
  have hmul : (x.numerator : Int) = (if x.negative then -v else v) * x.denominator := by
    rw [div_eq_iff hpos] at hmagnitude
    exact_mod_cast hmagnitude
  have hdvd : x.numerator % x.denominator = 0 := by
    have hcast : (x.numerator : Int) % x.denominator = 0 := by rw [hmul, Int.mul_emod_left]
    exact_mod_cast hcast
  have hquotient : ((x.numerator / x.denominator : Nat) : Int) = if x.negative then -v else v := by
    rw [Int.natCast_ediv, hmul,
      Int.mul_ediv_cancel _ (Int.natCast_ne_zero.mpr x.denominator_pos.ne')]
  constructor
  · simp [isWhole, hfinite, hdvd]
  · unfold truncated
    dsimp only
    rw [hquotient]
    split
    · exact neg_neg v
    · rfl

/-! ### Without the sign -/

theorem toNat_bits_abs (x : Binary64) : x.abs.bits.toNat = x.bits.toNat % 2 ^ 63 :=
  (UInt64.toNat_and ..).trans (Nat.and_two_pow_sub_one_eq_mod _ 63)

theorem negative_abs (x : Binary64) : x.abs.negative = false := by
  rw [negative, toNat_bits_abs]
  refine decide_eq_false ?_
  rw [Nat.div_eq_of_lt (Nat.mod_lt _ (Nat.two_pow_pos 63))]
  exact Nat.zero_ne_one

theorem exponentField_abs (x : Binary64) : x.abs.exponentField = x.exponentField := by
  simp only [exponentField, toNat_bits_abs, Nat.pow_eq]
  omega

theorem fraction_abs (x : Binary64) : x.abs.fraction = x.fraction := by
  rw [fraction, toNat_bits_abs]
  exact Nat.mod_mod_of_dvd _ (Nat.pow_dvd_pow 2 (by decide))

end Binary64

/-! ## Digits -/

theorem isDigit_of_mem_decimal {n : Nat} {c : Char} (h : c ∈ decimal n) : c.isDigit = true :=
  Nat.isDigit_of_mem_toDigits (by decide) (by decide) h

theorem decimal_injective {m n : Nat} (h : decimal m = decimal n) : m = n := by
  rw [← @Nat.ofDigitChars_ten_toDigits m, ← @Nat.ofDigitChars_ten_toDigits n]
  exact congrArg (Nat.ofDigitChars 10 · 0) h

/-- Different integers are written in different ways. -/
theorem signedDecimal_injective {v w : Int} (h : signedDecimal v = signedDecimal w) : v = w := by
  have hminus (n : Nat) : '-' ∉ decimal n := fun hm => absurd (isDigit_of_mem_decimal hm) (by decide)
  unfold signedDecimal at h
  split at h <;> split at h
  · have := decimal_injective (List.cons.inj h).2
    omega
  · exact absurd (h ▸ List.mem_cons_self) (hminus w.natAbs)
  · exact absurd (h ▸ List.mem_cons_self) (hminus v.natAbs)
  · have := decimal_injective h
    omega

end Stencil.Number
