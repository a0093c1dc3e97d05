import Stencil.Number.Places
import Stencil.Proofs.Number.Value

/-!
# Digits with zeros and points

Zeros in front do not change what digits write, and a point only stands between them.

- `length_padded`, `ofDigitChars_padded`, `padded_zeros_iff`: a number that is filled up to a width;
- `withPoint_eq`, `filter_isDigit_withPoint`: the digits on the two sides of the point;
- `Binary64.fixed_abs`: a finite number with a set number of places, without its sign.
-/

namespace Stencil.Number

variable {width places n : Nat}

/-! ## Zeros in front -/

theorem isDigit_of_mem_padded {c : Char} (h : c ∈ padded width n) : c.isDigit = true := by
  rcases List.mem_append.mp h with hzero | hdigit
  · rw [List.eq_of_mem_replicate hzero]
    rfl
  · exact isDigit_of_mem_decimal hdigit

/-- A number that fits takes up exactly the width. -/
theorem length_padded (hwidth : 0 < width) (h : n < 10 ^ width) : (padded width n).length = width := by
  have hfits : (decimal n).length ≤ width := (Nat.length_toDigits_le_iff (by decide) hwidth).mpr h
  rw [padded, length_zeroFilled, Nat.max_eq_left hfits]

theorem le_length_padded (width n : Nat) : width ≤ (padded width n).length := by
  rw [padded, length_zeroFilled]
  exact Nat.le_max_left ..

theorem ofDigitChars_replicate_zero (count : Nat) :
    Nat.ofDigitChars 10 (List.replicate count '0') 0 = 0 := by
  induction count with
  | zero => rfl
  | succ count ih => exact List.replicate_succ ▸ Nat.ofDigitChars_cons.trans ih

/-- Zeros in front do not count. -/
theorem ofDigitChars_padded (width n : Nat) : Nat.ofDigitChars 10 (padded width n) 0 = n := by
  rw [padded, zeroFilled, Nat.ofDigitChars_append, ofDigitChars_replicate_zero]
  exact Nat.ofDigitChars_ten_toDigits

/-- Only zero is written with nothing but zeros. -/
theorem padded_zeros_iff : (∀ d ∈ padded width n, d = '0') ↔ n = 0 := by
  constructor
  · intro h
    rw [← ofDigitChars_padded width n, List.eq_replicate_of_mem h, ofDigitChars_replicate_zero]
  · rintro rfl d hd
    rcases List.mem_append.mp hd with hzero | hdigit
    · exact List.eq_of_mem_replicate hzero
    · exact List.mem_singleton.mp hdigit

/-! ## Points -/

/-- What stands behind the whole part of a number: a separator and the digits of its places, or
nothing when it has no places. -/
def fractionPart (separator : Char) (fraction : List Char) : List Char :=
  if fraction = [] then [] else separator :: fraction

/-- At least one digit stands in front of the point, and as many behind it as there are places. -/
theorem withPoint_eq (places n : Nat) : ∃ whole fraction,
    withPoint places n = whole ++ fractionPart '.' fraction ∧ whole ≠ [] ∧
      fraction.length = places ∧ ∀ c ∈ whole ++ fraction, c.isDigit = true := by
  let digits := padded (places + 1) n
  let cut := digits.length - places
  have hlength : places + 1 ≤ digits.length := le_length_padded ..
  have hplaces : (digits.drop cut).length = places := by
    rw [List.length_drop]
    omega
  refine ⟨digits.take cut, digits.drop cut, ?_, ?_, hplaces, ?_⟩
  · have hnone : digits.drop cut = [] ↔ places = 0 := by rw [← List.length_eq_zero_iff, hplaces]
    by_cases hzero : places = 0
    · have hall : digits.take cut = digits := List.take_of_length_le (by omega)
      rw [withPoint, if_pos hzero, fractionPart, if_pos (hnone.mpr hzero), List.append_nil, hall]
    · rw [withPoint, if_neg hzero, fractionPart, if_neg (mt hnone.mp hzero)]
  · refine List.ne_nil_of_length_pos ?_
    rw [List.length_take]
    omega
  · rw [List.take_append_drop]
    exact fun c hc => isDigit_of_mem_padded hc

theorem filter_isDigit_fractionPart {separator : Char} {fraction : List Char}
    (hseparator : separator.isDigit = false) (h : ∀ d ∈ fraction, d.isDigit = true) :
    (fractionPart separator fraction).filter (·.isDigit) = fraction := by
  unfold fractionPart
  split
  · next hnone => rw [hnone, List.filter_nil]
  · rw [List.filter_cons_of_neg (by simp [hseparator]), List.filter_eq_self.mpr h]

/-- The digits around a point are those of the number. -/
theorem filter_isDigit_withPoint (places n : Nat) :
    (withPoint places n).filter (·.isDigit) = padded (places + 1) n := by
  have hdigits : ∀ d ∈ padded (places + 1) n, d.isDigit = true := fun d hd => isDigit_of_mem_padded hd
  unfold withPoint
  dsimp only
  split
  · exact List.filter_eq_self.mpr hdigits
  · rw [List.filter_append, List.filter_cons_of_neg (by decide), ← List.filter_append,
      List.take_append_drop, List.filter_eq_self.mpr hdigits]

/-- A finite number without its sign is written as its magnitude. -/
theorem Binary64.fixed_abs {x : Binary64} (h : x.isFinite = true) (places : Nat) :
    x.abs.fixed places = x.fixedMagnitude places := by
  have hfinite : x.abs.isFinite = true := by rwa [isFinite, exponentField_abs]
  simp [fixed, hfinite, negative_abs, fixedMagnitude, numerator, denominator, significand, exponent,
    exponentField_abs, fraction_abs]

end Stencil.Number
