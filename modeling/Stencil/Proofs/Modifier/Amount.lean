import Stencil.Modifier.Format
import Stencil.Proofs.Locale.Decimal
import Stencil.Proofs.Modifier.Integer
import Stencil.Proofs.Number.Nearest

/-!
# Amounts of money and percentages

Both are written as an amount, which is made of digits and separators, with a sign in front of it and
the symbols of the locale around it.  The sign of money is that of the number, whatever is left of
that behind rounding; a percentage has one only with digits that are not all zeros.  Its amount is of
the number times one hundred, which may lie beyond the finite numbers, and then it is no amount.

- `Conventions.Amount`, `Zeros`: amounts of so many units, and texts with no other digits than zeros;
- `Conventions.zeros_decimalText_iff`: the numbers that are written with zeros only;
- `Numeral.toBinary64_nearby`: what the nearest binary64 number keeps of a number;
- `format_amount`: **what is written for a finite number**;
- `format_amount_slips`: a sign in front of zeros, and a percentage without digits.
-/

namespace Stencil

open Number

/-! ## Signs -/

namespace Number.Binary64

variable {x : Binary64}

theorem value_eq_abs (x : Binary64) : x.value = (if x.negative then -1 else 1) * |x.value| := by
  rw [abs_value, ← value_eq]

/-- A number is below zero when its value is. -/
theorem belowZero_iff (hfinite : x.isFinite = true) : x.belowZero = true ↔ x.value < 0 := by
  have hbelow : x.belowZero = true ↔ x.negative = true ∧ x.significand ≠ 0 := by
    simp [belowZero, isNaN_of_isFinite hfinite, hfinite]
  rw [hbelow, ← Nat.pos_iff_ne_zero]
  have hpow : (0 : ℚ) < 2 ^ x.exponent := by positivity
  cases hnegative : x.negative with
  | true =>
    rw [value, hnegative, if_pos rfl, neg_one_mul, neg_mul, neg_lt_zero,
      mul_pos_iff_of_pos_right hpow, Nat.cast_pos, and_iff_right rfl]
  | false =>
    have hvalue : 0 ≤ x.value := by
      rw [value, hnegative, if_neg Bool.false_ne_true, one_mul]
      positivity
    exact iff_of_false (fun h => Bool.false_ne_true h.1) (not_lt.mpr hvalue)

end Number.Binary64

/-- What the nearest binary64 number keeps of a value: its sign, and all of it unless that is large,
but not beyond the integers of 64 bits. -/
structure Numeral.Nearby (v : ℚ) (x : Binary64) : Prop where
  isFinite : x.isFinite = true
  belowZero_iff : x.belowZero = true ↔ v < 0
  magnitude : |x.value| = |v| ∨ (1 ≤ |x.value| ∧ |x.value| ≤ 2 ^ 64) ∧ 1 ≤ |v| ∧ |v| ≤ 2 ^ 64

namespace Numeral

open Binary64

/-- Integers of 64 bits are far from where the finite numbers end. -/
theorem ofInt_spec {z : ℤ} (hne : z ≠ 0) (hz : |z| < 2 ^ 64) :
    (ofInt z).isFinite = true ∧ (ofInt z).negative = decide (z < 0) ∧
      1 ≤ |(ofInt z).value| ∧ |(ofInt z).value| ≤ 2 ^ 64 := by
  have hnum : 0 < z.natAbs := Int.natAbs_pos.mpr hne
  have habs : ((z.natAbs : ℕ) : ℚ) / (1 : ℕ) = |(z : ℚ)| := by
    rw [Nat.cast_one, div_one, Nat.cast_natAbs, Int.cast_abs]
  have hleast : 1 ≤ |(z : ℚ)| := by exact_mod_cast Int.one_le_abs hne
  have hgreatest : |(z : ℚ)| < 2 ^ (64 : ℤ) := by exact_mod_cast hz
  have hlimit : ((z.natAbs : ℕ) : ℚ) / (1 : ℕ) < limit := by
    rw [habs]
    exact (hgreatest.trans_le (zpow_le_zpow_right₀ one_le_two (by decide))).trans zpow_lt_limit
  -- the powers of two around it are between these bounds
  obtain ⟨hlow, hhigh⟩ := floorLog2_spec hnum Nat.one_pos
  rw [habs] at hlow hhigh
  have hfloorLow : 0 < floorLog2 z.natAbs 1 + 1 := by
    rw [← zpow_lt_zpow_iff_right₀ (one_lt_two (α := ℚ)), zpow_zero]
    exact hleast.trans_lt hhigh
  have hfloorHigh : floorLog2 z.natAbs 1 < 64 := by
    rw [← zpow_lt_zpow_iff_right₀ (one_lt_two (α := ℚ))]
    exact hlow.trans_lt hgreatest
  have hvalue : _ ≤ |(ofInt z).value| ∧ |(ofInt z).value| ≤ _ :=
    abs_value_ofRatio hnum Nat.one_pos hlimit (by omega)
  refine ⟨(isFinite_ofRatio_iff hnum Nat.one_pos).mpr hlimit, negative_ofRatio hnum Nat.one_pos,
    (one_le_zpow₀ one_le_two (by omega)).trans hvalue.1, hvalue.2.trans ?_⟩
  rw [← zpow_natCast]
  exact zpow_le_zpow_right₀ one_le_two (by omega)

theorem nearby_ofInt {z : ℤ} (hz : |z| < 2 ^ 64) : Nearby z (ofInt z) := by
  by_cases hzero : z = 0
  · subst hzero
    have hvalue : (ofInt 0).value = 0 := by
      rw [value, show (ofInt 0).significand = 0 by decide, Nat.cast_zero, mul_zero, zero_mul]
    exact ⟨by decide, iff_of_false (by decide) (by simp), .inl (by rw [hvalue, Int.cast_zero])⟩
  · obtain ⟨hfinite, hnegative, hlow, hhigh⟩ := ofInt_spec hzero hz
    refine ⟨hfinite, ?_, .inr ⟨⟨hlow, hhigh⟩, ?_, ?_⟩⟩
    · rw [Binary64.belowZero_iff hfinite, value_eq_abs, hnegative, Int.cast_lt_zero]
      by_cases hbelow : z < 0
      · simp only [hbelow, decide_true, if_true, iff_true]
        linarith
      · simp only [hbelow, decide_false, Bool.false_eq_true, if_false, iff_false, not_lt]
        linarith
    · exact_mod_cast Int.one_le_abs hzero
    · exact_mod_cast hz.le

namespace Nearby

variable {v : ℚ} {x : Binary64}

/-- The same numbers are small enough to leave nothing behind rounding. -/
theorem small_iff (h : Nearby v x) (places : Nat) :
    2 * |x.value| * 10 ^ places ≤ 1 ↔ 2 * |v| * 10 ^ places ≤ 1 := by
  rcases h.magnitude with heq | ⟨⟨hx, -⟩, hv, -⟩
  · rw [heq]
  · have hpow : (1 : ℚ) ≤ 10 ^ places := one_le_pow₀ (by norm_num)
    exact iff_of_false (by nlinarith) (by nlinarith)

/-- And the same ones are far enough from the end of the finite numbers. -/
theorem percent_iff (h : Nearby v x) :
    100 * |x.value| < Binary64.limit ↔ 100 * |v| < Binary64.limit := by
  rcases h.magnitude with heq | ⟨⟨-, hx⟩, -, hv⟩
  · rw [heq]
  · have hlimit : (100 * 2 ^ 64 : ℚ) < Binary64.limit := by
      have hpow : (2 : ℚ) ^ (71 : ℤ) ≤ 2 ^ (970 : ℤ) := zpow_le_zpow_right₀ one_le_two (by decide)
      refine lt_of_lt_of_le ?_ (hpow.trans zpow_lt_limit.le)
      norm_num
    exact iff_of_true (by linarith) (by linarith)

end Nearby

/-- **What the nearest binary64 number keeps of a number.** -/
theorem toBinary64_nearby {n : Numeral} {v : ℚ} (h : n.value? = some v) :
    Nearby v n.toBinary64 := by
  cases n with
  | signed n =>
    obtain rfl := Option.some.inj h
    have hleast := n.le_toInt
    have hgreatest := n.toInt_lt
    exact nearby_ofInt (abs_lt.mpr ⟨by omega, by omega⟩)
  | unsigned n =>
    obtain rfl := Option.some.inj h
    have hgreatest : n.toNat < 2 ^ 64 := n.toNat_lt
    have hsame : ofNat n.toNat = ofInt n.toNat := by
      rw [ofInt, decide_eq_false (by omega)]
      rfl
    have hnearby := nearby_ofInt (z := n.toNat) (abs_lt.mpr ⟨by omega, by omega⟩)
    rwa [← hsame, Int.cast_natCast] at hnearby
  | binary x =>
    rw [value?] at h
    split at h
    · next hfinite =>
      obtain rfl := Option.some.inj h
      exact ⟨hfinite, Binary64.belowZero_iff hfinite, .inl rfl⟩
    · cases h

end Numeral

/-! ## Amounts -/

/-- A magnitude in units of its last place, to the nearest whole number of them. -/
def Number.Binary64.units (x : Binary64) (places : Nat) : Nat :=
  halfEven (x.numerator * 10 ^ places) x.denominator

/-- A text of digits and separators of a locale, with at least one digit.  Its digits are those of
`units`. -/
structure Conventions.Amount (c : Conventions) (units : Nat) (text : List Char) : Prop where
  digit : ∃ d ∈ text, d.isDigit = true
  separator : ∀ d ∈ text, d.isDigit = false → d = c.groupingSeparator ∨ d = c.decimalSeparator
  units_eq : Nat.ofDigitChars 10 (text.filter (·.isDigit)) 0 = units

/-- No digit of a text but zeros. -/
def Zeros (text : List Char) : Prop := ∀ d ∈ text, d.isDigit = true → d = '0'

instance (text : List Char) : Decidable (Zeros text) :=
  List.decidableBAll (fun d : Char => d.isDigit = true → d = '0') text

namespace Conventions

variable {c : Conventions} {x : Binary64} {places : Nat} {grouped : Bool}

/-- A text beside the symbol of money, in the order of the locale. -/
def withSymbol (c : Conventions) (amount : List Char) : List Char :=
  if c.currencyFirst then c.currencySymbol.toList ++ c.currencySpacing.toList ++ amount
  else amount ++ c.currencySpacing.toList ++ c.currencySymbol.toList

theorem amount_decimalText (hc : c ∈ conventionsTable) (h : x.isFinite = true) :
    c.Amount (x.units places) (c.decimalText x places grouped) where
  digit := by
    have hlength := le_length_padded (places + 1) (x.units places)
    rw [Binary64.units, ← filter_isDigit_decimalText hc h places grouped] at hlength
    obtain ⟨d, hd⟩ := List.exists_mem_of_length_pos (Nat.zero_lt_of_lt hlength)
    exact ⟨d, List.mem_filter.mp hd⟩
  separator _ := separator_of_mem_decimalText hc h places grouped
  units_eq := by
    rw [filter_isDigit_decimalText hc h places grouped, ofDigitChars_padded]
    rfl

/-- Nothing but zeros is written when nothing is left behind rounding. -/
theorem zeros_decimalText (hc : c ∈ conventionsTable) (h : x.isFinite = true) :
    Zeros (c.decimalText x places grouped) ↔ x.units places = 0 := by
  rw [Binary64.units, ← padded_zeros_iff, ← filter_isDigit_decimalText hc h places grouped]
  simp only [Zeros, List.mem_filter, and_imp]

/-- That is so up to half a unit of the last place. -/
theorem zeros_decimalText_iff (hc : c ∈ conventionsTable) (h : x.isFinite = true) :
    Zeros (c.decimalText x places grouped) ↔ 2 * |x.value| * 10 ^ places ≤ 1 := by
  have hpos : (0 : ℚ) < x.denominator := Nat.cast_pos.mpr x.denominator_pos
  rw [zeros_decimalText hc h, Binary64.units, halfEven_eq_zero_iff x.denominator_pos,
    Binary64.abs_value, mul_div_assoc', div_mul_eq_mul_div, div_le_one hpos, mul_assoc]
  exact_mod_cast Iff.rfl

/-- Nothing but zeros without places is a single one. -/
theorem decimalText_of_zeros (hc : c ∈ conventionsTable) (h : x.isFinite = true)
    (hzeros : Zeros (c.decimalText x 0 grouped)) : c.decimalText x 0 grouped = ['0'] := by
  have hnone : halfEven _ _ = 0 := (zeros_decimalText hc h).mp hzeros
  obtain ⟨whole, fraction, -, hplaces, -, hmagnitude, htext⟩ := c.decimalText_eq h 0 grouped
  obtain rfl := List.length_eq_zero_iff.mp hplaces
  have hwhole : whole = ['0'] := by
    rw [fractionPart, if_pos rfl, List.append_nil] at hmagnitude
    rw [← hmagnitude, Binary64.fixedMagnitude, Nat.pow_eq, hnone]
    rfl
  rw [htext, hwhole, fractionPart, if_pos rfl]
  cases grouped <;> rfl

/-- So whatever differs from a zero tells that there is another digit. -/
theorem any_decimalText (hc : c ∈ conventionsTable) (h : x.isFinite = true) :
    (c.decimalText x 0 grouped).any (· ≠ '0') = true ↔ ¬Zeros (c.decimalText x 0 grouped) := by
  constructor
  · intro hany hzeros
    rw [decimalText_of_zeros hc h hzeros] at hany
    exact absurd hany (by decide)
  · intro hother
    simp only [Zeros, not_forall] at hother
    obtain ⟨d, hd, -, hne⟩ := hother
    exact List.any_eq_true.mpr ⟨d, hd, decide_eq_true hne⟩

/-- An infinity is written with letters. -/
theorem decimalText_infinity (c : Conventions) (negative : Bool) (places : Nat) :
    c.decimalText (Binary64.infinity negative) places true = "inf".toList := by
  have hfinite : (Binary64.infinity negative).abs.isFinite = false := by cases negative <;> decide
  have hplain : (Binary64.infinity negative).abs.plain = "inf".toList := by
    cases negative <;> decide
  rw [decimalText, Binary64.fixed, hfinite, hplain]
  rfl

end Conventions

/-! ## Formats -/

namespace Format

variable {n : Numeral} {v : ℚ}

/-- The number that is shown for a finite number. -/
theorem finite?_number (h : n.value? = some v) : finite? (.number n) = some n.toBinary64 := by
  rw [finite?, Option.filter_some, if_pos (Numeral.toBinary64_nearby h).isFinite]

/-- A sign where it is wanted. -/
def minus (wanted : Prop) [Decidable wanted] : List Char := if wanted then ['-'] else []

theorem minus_congr {p q : Prop} [Decidable p] [Decidable q] (h : p ↔ q) : minus p = minus q :=
  if_congr h rfl rfl

theorem currencyText_eq (c : Conventions) (x : Binary64) :
    currencyText c x = minus (x.belowZero = true) ++
      c.withSymbol (c.decimalText x c.currencyPlaces true) :=
  rfl

theorem percentText_eq (c : Conventions) (x : Binary64) :
    let amount := c.decimalText (x.scaled 100 1) 0 true
    percentText c x = minus (x.belowZero = true ∧ amount.any (· ≠ '0') = true) ++ amount ++
      c.percentSpacing.toList ++ ['%'] := by
  simp only [percentText, minus, Bool.and_eq_true]

/-- Letters are no zeros, so that an infinity has its sign. -/
theorem percentText_infinity (c : Conventions) {x : Binary64} {negative : Bool}
    (h : x.scaled 100 1 = Binary64.infinity negative) :
    percentText c x =
      minus (x.belowZero = true) ++ "inf".toList ++ c.percentSpacing.toList ++ ['%'] := by
  have hsign : x.belowZero = true ∧ ("inf".toList.any (· ≠ '0')) = true ↔ x.belowZero = true :=
    and_iff_left (by decide)
  rw [percentText_eq]
  simp only [h, Conventions.decimalText_infinity, minus_congr hsign]

theorem format_currency (h : n.value? = some v) (settings : Settings) :
    format (.number n) (some "currency") settings =
      .text (String.ofList (currencyText settings.locale.conventions n.toBinary64)) := by
  have hform : Form.ofArgument "currency" = .currency := rfl
  simp only [format, hform, Form.render?, finite?_number h, Option.map_some]

theorem format_percent (h : n.value? = some v) (settings : Settings) :
    format (.number n) (some "percent") settings =
      .text (String.ofList (percentText settings.locale.conventions n.toBinary64)) := by
  have hform : Form.ofArgument "percent" = .percent := rfl
  simp only [format, hform, Form.render?, finite?_number h, Option.map_some]

end Format

open Format

/-- **What is written for a finite number.**  Money is an amount beside its symbol, of the nearest
binary64 number with the places of the locale.  Its sign is that
of the number, also when the amount has only zeros, which is so up to half a unit of the last place.
A percentage is an amount too, with a sign in front of other digits than zeros only, as long as a
hundred times the number is not beyond the finite numbers; otherwise it has no digits. -/
theorem format_amount {n : Numeral} {v : ℚ} (h : n.value? = some v) (settings : Settings) :
    let c := settings.locale.conventions
    let x := n.toBinary64
    (∃ amount, c.Amount (x.units c.currencyPlaces) amount ∧
      (Zeros amount ↔ 2 * |v| * 10 ^ c.currencyPlaces ≤ 1) ∧
      format (.number n) (some "currency") settings =
        .text (String.ofList (minus (v < 0) ++ c.withSymbol amount))) ∧
    (100 * |v| < Binary64.limit → ∃ amount, c.Amount ((x.scaled 100 1).units 0) amount ∧
      format (.number n) (some "percent") settings =
        .text (String.ofList
          (minus (v < 0 ∧ ¬Zeros amount) ++ amount ++ c.percentSpacing.toList ++ ['%']))) ∧
    (Binary64.limit ≤ 100 * |v| →
      format (.number n) (some "percent") settings =
        .text (String.ofList
          (minus (v < 0) ++ "inf".toList ++ c.percentSpacing.toList ++ ['%']))) := by
  intro c x
  have hc : c ∈ conventionsTable := settings.locale.conventions_mem
  have hnearby : Numeral.Nearby v x := Numeral.toBinary64_nearby h
  obtain ⟨hmultiple, hinfinite⟩ := Binary64.scaled_spec (k := 100) hnearby.isFinite
  rw [Nat.cast_ofNat] at hmultiple hinfinite
  refine ⟨⟨c.decimalText x c.currencyPlaces true,
    Conventions.amount_decimalText hc hnearby.isFinite, ?_, ?_⟩, ?_, ?_⟩
  · rw [Conventions.zeros_decimalText_iff hc hnearby.isFinite, hnearby.small_iff]
  · rw [format_currency h, currencyText_eq, minus_congr hnearby.belowZero_iff]
  · intro hlimit
    have hfinite := hmultiple.mpr (hnearby.percent_iff.mpr hlimit)
    refine ⟨c.decimalText (x.scaled 100 1) 0 true,
      Conventions.amount_decimalText hc hfinite, ?_⟩
    rw [format_percent h, percentText_eq,
      minus_congr (and_congr hnearby.belowZero_iff (Conventions.any_decimalText hc hfinite))]
  · intro hlimit
    have hinfinity := hinfinite (not_lt.mp (mt hnearby.percent_iff.mp (not_lt.mpr hlimit)))
    rw [format_percent h, percentText_infinity c hinfinity, minus_congr hnearby.belowZero_iff]

/-- A debt in German. -/
theorem format_amount_debt :
    let n : Numeral := .binary ⟨0xC0934A0000000000⟩
    let v : ℚ := -2469 / 2
    let settings : Settings := ⟨⟨"de", some "DE"⟩, 0⟩
    (n.value? = some v ∧ 100 * |v| < Binary64.limit) ∧
      format (.number n) (some "currency") settings = .text "-1.234,50\u00a0€" ∧
      format (.number n) (some "percent") settings = .text "-123.450\u00a0%" ∧
      (∃ amount, german.Amount 123450 amount ∧
        Scalar.text "-1.234,50\u00a0€" =
          .text (String.ofList (minus (v < 0) ++ german.withSymbol amount))) ∧
      ∃ amount, german.Amount 123450 amount ∧
        Scalar.text "-123.450\u00a0%" = .text (String.ofList
          (minus (v < 0 ∧ ¬Zeros amount) ++ amount ++ german.percentSpacing.toList ++ ['%'])) := by
  intro n v settings
  have hvalue : n.value? = some v := by
    rw [Numeral.value?_binary (b := true) (m := 5429388417957888) (e := -42) (by decide) (by decide)]
    norm_num [v]
  have hlimit : 100 * |v| < Binary64.limit := by
    have hpow : (2 : ℚ) ^ (20 : ℤ) ≤ 2 ^ (970 : ℤ) := zpow_le_zpow_right₀ one_le_two (by decide)
    refine lt_of_lt_of_le ?_ (hpow.trans Binary64.zpow_lt_limit.le)
    norm_num [v, abs_of_neg]
  have hmoney : format (.number n) (some "currency") settings = .text "-1.234,50\u00a0€" := by
    decide +kernel
  have hpercent : format (.number n) (some "percent") settings = .text "-123.450\u00a0%" := by
    decide +kernel
  have hgerman : settings.locale.conventions = german := by decide +kernel
  obtain ⟨⟨amount, hamount, -, htext⟩, hshare, -⟩ := format_amount hvalue settings
  obtain ⟨share, hshare, hshareText⟩ := hshare hlimit
  have hunits : n.toBinary64.units german.currencyPlaces = 123450 := by decide +kernel
  have hshareUnits : (n.toBinary64.scaled 100 1).units 0 = 123450 := by decide +kernel
  rw [hgerman, hunits] at hamount
  rw [hshareUnits, hgerman] at hshare
  rw [hgerman] at htext hshareText
  exact ⟨⟨hvalue, hlimit⟩, hmoney, hpercent, ⟨amount, hamount, hmoney.symm.trans htext⟩,
    ⟨share, hshare, hpercent.symm.trans hshareText⟩⟩

/-- **A sign in front of zeros, and a percentage without digits.**  A debt of a tenth of a cent is
written with a sign although nothing is left of it, and no sign is written for its percentage; a
hundred times a large number is no finite number any more. -/
theorem format_amount_slips :
    let little : Binary64 := ⟨0xBF50624DD2F1A9FC⟩
    let large : Binary64 := ⟨0x7FE1CCF385EBC8A0⟩
    let written (x : Binary64) (form : String) : Scalar :=
      format (.number (.binary x)) (some form) ⟨.default, 0⟩
    little.isFinite = true ∧ large.isFinite = true ∧
      written little "currency" = .text "-$0.00" ∧ Zeros "-$0.00".toList ∧
      written little "percent" = .text "0%" ∧
      written large "percent" = .text "inf%" ∧ "inf%".toList.any (·.isDigit) = false := by
  decide +kernel

end Stencil
