import Stencil.Number.Shortest
import Stencil.Proofs.Number.Digits
import Mathlib.Algebra.Order.Field.Power
import Mathlib.Data.Nat.Cast.Field
import Mathlib.Tactic.FieldSimp
import Mathlib.Tactic.Linarith
import Mathlib.Tactic.NormNum
import Mathlib.Tactic.Positivity
import Mathlib.Tactic.Ring

/-!
# Points in shortest texts

The shortest decimal of a binary64 number lies within half a unit of it.  That is closer than any
integer comes to a number with a fraction, so the text of such a number has a point; and a whole
number of at least seventeen digits has too many of them in front of the point for any digit to stand
behind it.

- `Binary64.Decimal.value`: the rational number that a decimal is;
- `Binary64.readsBack_near`: a decimal that reads back lies within half a unit;
- `Binary64.shortest_near`: **so does the shortest decimal**;
- `Binary64.shortest_scale_neg`, `Binary64.shortest_scale_nonneg`: which shortest texts have digits
  behind a point;
- `Binary64.isWhole_iff`, `Binary64.abs_value`: whole numbers, and magnitudes, by their values.
-/

namespace Stencil.Number

namespace Binary64

variable {x : Binary64}

/-! ## Values -/

theorem abs_value (x : Binary64) : |x.value| = (x.numerator : ℚ) / x.denominator := by
  have hpos : (0 : ℚ) ≤ (x.numerator : ℚ) / x.denominator := by positivity
  rw [value_eq, abs_mul, abs_of_nonneg hpos]
  cases x.negative <;> simp

/-- A number is whole exactly when its value is an integer. -/
theorem isWhole_iff (hfinite : x.isFinite = true) : x.isWhole = true ↔ ∃ z : ℤ, x.value = z := by
  constructor
  · intro h
    obtain ⟨-, hmod⟩ := Bool.and_eq_true_iff.mp h
    have hdvd : x.denominator ∣ x.numerator := Nat.dvd_of_mod_eq_zero (beq_iff_eq.mp hmod)
    have hpos : (x.denominator : ℚ) ≠ 0 := Nat.cast_ne_zero.mpr x.denominator_pos.ne'
    refine ⟨(if x.negative then -1 else 1) * (x.numerator / x.denominator : ℕ), ?_⟩
    rw [value_eq, ← Nat.cast_div hdvd hpos]
    generalize x.numerator / x.denominator = n
    cases x.negative <;> simp
  · rintro ⟨z, hz⟩
    exact (whole_of_value_eq hfinite hz).1

theorem div_lt_iff_abs_value (x : Binary64) (k : Nat) :
    x.numerator / x.denominator < k ↔ |x.value| < k := by
  have hpos : (0 : ℚ) < x.denominator := Nat.cast_pos.mpr x.denominator_pos
  rw [abs_value, div_lt_iff₀ hpos, Nat.div_lt_iff_lt_mul x.denominator_pos]
  exact_mod_cast Iff.rfl

theorem significand_lt (x : Binary64) : x.significand < 2 ^ 53 := by
  have hfraction : x.fraction < 2 ^ 52 := Nat.mod_lt _ (Nat.two_pow_pos 52)
  unfold significand
  rw [Nat.pow_eq]
  split <;> omega

/-- A number whose last bit stands for at least one has no denominator. -/
theorem denominator_eq_one (h : 0 ≤ x.exponent) : x.denominator = 1 := by
  have hnone : (-x.exponent).toNat = 0 := by omega
  rw [denominator, hnone]

/-- Below that its numerator is the significand, and the denominator the unit. -/
theorem of_exponent_neg (h : x.exponent < 0) :
    x.numerator = x.significand ∧ (2 : ℚ) ^ x.exponent = 1 / x.denominator := by
  have hnone : x.exponent.toNat = 0 := by omega
  have hexponent : x.exponent = -((-x.exponent).toNat : ℤ) := by omega
  constructor
  · rw [numerator, hnone]
    exact Nat.mul_one _
  · rw [denominator, Nat.pow_eq]
    conv_lhs => rw [hexponent]
    rw [zpow_neg, zpow_natCast, one_div]
    push_cast
    rfl

/-! ## Decimals -/

namespace Decimal

/-- The value of a decimal. -/
def value (d : Decimal) : ℚ := d.digits * 10 ^ d.scale

/-- Moving zeros into the scale leaves the value. -/
theorem value_stripped (fuel : Nat) : ∀ d : Decimal, (d.stripped fuel).value = d.value := by
  induction fuel with
  | zero => exact fun d => rfl
  | succ fuel ih =>
    intro d
    rw [stripped]
    split
    · next h =>
      rw [ih, value, value, zpow_add_one₀ (by norm_num)]
      have hdigits : d.digits = d.digits / 10 * 10 := by omega
      conv_rhs => rw [hdigits]
      push_cast
      ring
    · rfl

/-- It moves the scale up only. -/
theorem scale_le_stripped (fuel : Nat) : ∀ d : Decimal, d.scale ≤ (d.stripped fuel).scale := by
  induction fuel with
  | zero => exact fun d => le_refl _
  | succ fuel ih =>
    intro d
    rw [stripped]
    split
    · exact (Int.le_add_one (le_refl _)).trans (ih _)
    · exact le_refl _

/-- A decimal without places is a natural number. -/
theorem value_of_scale_nonneg {d : Decimal} (h : 0 ≤ d.scale) :
    d.value = (d.digits * 10 ^ d.scale.toNat : ℕ) := by
  rw [value]
  push_cast
  rw [← zpow_natCast, Int.toNat_of_nonneg h]

end Decimal

/-! ## Half a unit -/

/-- The exact decimal has the value of the number. -/
theorem value_exactDecimal (x : Binary64) :
    x.exactDecimal.value = (x.numerator : ℚ) / x.denominator := by
  have hten : (10 : ℚ) ^ (-((-x.exponent).toNat : ℤ)) =
      ((5 : ℚ) ^ (-x.exponent).toNat * 2 ^ (-x.exponent).toNat)⁻¹ := by
    rw [zpow_neg, zpow_natCast, ← mul_pow]
    norm_num
  rw [Decimal.value, exactDecimal, denominator]
  simp only [Nat.pow_eq]
  push_cast
  rw [hten]
  have hfive : (5 : ℚ) ^ (-x.exponent).toNat ≠ 0 := by positivity
  have htwo : (2 : ℚ) ^ (-x.exponent).toNat ≠ 0 := by positivity
  field_simp

/-- A decimal that reads back lies within half a unit. -/
theorem readsBack_near {d : Decimal} (h : x.readsBack d = true) :
    |d.value - (x.numerator : ℚ) / x.denominator| ≤ 2 ^ x.exponent / 2 := by
  let e := x.exponent - 2
  let value := d.digits * 10 ^ d.scale.toNat * 2 ^ (-e).toNat
  let unit := 2 ^ e.toNat * 10 ^ (-d.scale).toNat
  -- the ends of the interval, whether they belong to it or not
  obtain ⟨low, hlow, hbelow, habove⟩ : ∃ low : ℕ, 4 * x.significand ≤ low + 2 ∧
      low * unit ≤ value ∧ value ≤ (4 * x.significand + 2) * unit := by
    refine ⟨4 * x.significand - (if x.fraction = 0 ∧ 1 < x.exponentField then 1 else 2), ?_, ?_⟩
    · split <;> omega
    · unfold readsBack at h
      dsimp only at h
      split at h
      · exact of_decide_eq_true h
      · obtain ⟨hlow, hhigh⟩ := of_decide_eq_true h
        exact ⟨hlow.le, hhigh.le⟩
  -- in quarters of the unit
  have hunit : (0 : ℚ) < unit := by positivity
  have hquarter : (2 : ℚ) ^ x.exponent = 4 * 2 ^ e := by
    rw [show x.exponent = 2 + e by omega, zpow_add₀ two_ne_zero]
    norm_num
  have hvalue : (value : ℚ) = d.value / 2 ^ e * unit := by
    have htwo := zpow_eq_div (b := 2) two_ne_zero e
    have hten := zpow_eq_div (b := 10) (by norm_num) d.scale
    have hpos : (2 : ℚ) ^ (-e).toNat ≠ 0 := by positivity
    have hpos' : (10 : ℚ) ^ (-d.scale).toNat ≠ 0 := by positivity
    have hpos'' : (2 : ℚ) ^ e.toNat ≠ 0 := by positivity
    rw [Decimal.value, htwo, hten]
    push_cast [value, unit]
    field_simp
  have hpow : (0 : ℚ) < 2 ^ e := by positivity
  have hleast : (low : ℚ) * 2 ^ e ≤ d.value := by
    have hcast : (low * unit : ℚ) ≤ value := by exact_mod_cast hbelow
    rw [hvalue] at hcast
    exact (le_div_iff₀ hpow).mp (le_of_mul_le_mul_right hcast hunit)
  have hgreatest : d.value ≤ (4 * x.significand + 2) * 2 ^ e := by
    have hcast : (value : ℚ) ≤ (4 * x.significand + 2) * unit := by exact_mod_cast habove
    rw [hvalue] at hcast
    exact (div_le_iff₀ hpow).mp (le_of_mul_le_mul_right hcast hunit)
  have hclose : (4 * x.significand : ℚ) ≤ low + 2 := by exact_mod_cast hlow
  rw [← magnitude_eq, hquarter, abs_le]
  constructor <;> nlinarith

/-- A decimal of a grid reads back, and its scale is told by the grid. -/
theorem of_onGrid?_eq_some {n : Nat} {d : Decimal} (h : x.onGrid? n = some d) :
    x.readsBack d = true ∧ d.scale = magnitudeOf x.numerator x.denominator - n := by
  unfold onGrid? at h
  dsimp only at h
  split at h
  · next hbelow habove =>
    obtain rfl := Option.some.inj h
    split
    · exact ⟨hbelow, rfl⟩
    · exact ⟨habove, rfl⟩
  · next hbelow _ =>
    obtain rfl := Option.some.inj h
    exact ⟨hbelow, rfl⟩
  · next habove =>
    obtain rfl := Option.some.inj h
    exact ⟨habove, rfl⟩
  · cases h

/-- The shortest decimal is the exact one, or one of a grid of up to seventeen digits, with its zeros
in the scale. -/
theorem shortest_eq (x : Binary64) : ∃ d fuel, x.shortest = Decimal.stripped fuel d ∧
    (d = x.exactDecimal ∨ ∃ n ≤ 17, x.readsBack d = true ∧
      d.scale = magnitudeOf x.numerator x.denominator - (n : ℕ)) := by
  refine ⟨_, _, rfl, ?_⟩
  cases hfound : (List.range 17).findSome? (fun n => x.onGrid? (n + 1)) with
  | none => exact .inl rfl
  | some d =>
    obtain ⟨n, hn, hgrid⟩ := List.exists_of_findSome?_eq_some hfound
    exact .inr ⟨n + 1, List.mem_range.mp hn, of_onGrid?_eq_some hgrid⟩

/-- **The shortest decimal lies within half a unit.** -/
theorem shortest_near (x : Binary64) :
    |x.shortest.value - (x.numerator : ℚ) / x.denominator| ≤ 2 ^ x.exponent / 2 := by
  obtain ⟨d, fuel, hshortest, hd⟩ := x.shortest_eq
  rw [hshortest, Decimal.value_stripped]
  rcases hd with rfl | ⟨n, -, hreads, -⟩
  · rw [value_exactDecimal, sub_self, abs_zero]
    positivity
  · exact readsBack_near hreads

/-! ## Which texts have a point -/

/-- A number with a fraction is not written as an integer. -/
theorem shortest_scale_neg (h : x.numerator % x.denominator ≠ 0) : x.shortest.scale < 0 := by
  by_contra hscale
  have hnear := x.shortest_near
  rw [Decimal.value_of_scale_nonneg (not_lt.mp hscale)] at hnear
  generalize x.shortest.digits * 10 ^ x.shortest.scale.toNat = n at hnear
  have hexponent : x.exponent < 0 := by
    by_contra hnonneg
    rw [denominator_eq_one (not_lt.mp hnonneg), Nat.mod_one] at h
    exact h rfl
  have hpos : (0 : ℚ) < x.denominator := Nat.cast_pos.mpr x.denominator_pos
  -- half a unit is less than the distance to any other multiple of the unit
  have hdistance : |(n * x.denominator - x.numerator : ℚ)| ≤ 1 / 2 := by
    rw [(of_exponent_neg hexponent).2] at hnear
    have hscaled := mul_le_mul_of_nonneg_right hnear hpos.le
    rw [← abs_of_pos hpos, ← abs_mul, abs_of_pos hpos] at hscaled
    have hleft : (n - (x.numerator : ℚ) / x.denominator) * x.denominator =
        n * x.denominator - x.numerator := by field_simp
    have hright : 1 / (x.denominator : ℚ) / 2 * x.denominator = 1 / 2 := by field_simp
    rwa [hleft, hright] at hscaled
  have hzero : (n * x.denominator : ℤ) - x.numerator = 0 := by
    refine Int.abs_lt_one_iff.mp ?_
    have hlt : |(n * x.denominator - x.numerator : ℚ)| < 1 := lt_of_le_of_lt hdistance (by norm_num)
    exact_mod_cast hlt
  have hmul : x.numerator = n * x.denominator := by
    have hcast : (x.numerator : ℤ) = n * x.denominator := (sub_eq_zero.mp hzero).symm
    exact_mod_cast hcast
  exact h (hmul ▸ Nat.mul_mod_left _ _)

/-- A number with seventeen digits in front of the point is written without one. -/
theorem shortest_scale_nonneg (h : 10 ^ 16 ≤ x.numerator / x.denominator) :
    0 ≤ x.shortest.scale := by
  obtain ⟨d, fuel, hshortest, hd⟩ := x.shortest_eq
  rw [hshortest]
  refine le_trans ?_ (Decimal.scale_le_stripped fuel d)
  rcases hd with rfl | ⟨n, hn, -, hscale⟩
  · -- the significand alone is less
    have hexponent : 0 ≤ x.exponent := by
      by_contra hneg
      have hnumerator := (of_exponent_neg (not_le.mp hneg)).1
      have hlt := x.significand_lt
      have hle := Nat.div_le_self x.numerator x.denominator
      omega
    show 0 ≤ -((-x.exponent).toNat : ℤ)
    omega
  · have hlarge : x.denominator ≤ x.numerator := by
      by_contra hlt
      rw [Nat.div_eq_of_lt (not_le.mp hlt)] at h
      omega
    have hlength : 17 ≤ (decimal (x.numerator / x.denominator)).length := by
      by_contra hshort
      have hfew : (decimal (x.numerator / x.denominator)).length ≤ 16 := by omega
      exact absurd ((Nat.length_toDigits_le_iff (by decide) (by decide)).mp hfew) (not_lt.mpr h)
    rw [hscale, magnitudeOf, if_pos hlarge]
    omega

end Binary64

end Stencil.Number
