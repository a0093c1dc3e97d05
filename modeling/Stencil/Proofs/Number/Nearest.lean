import Stencil.Proofs.Number.Shortest

/-!
# The nearest binary64 number

Rounding a quotient to a binary64 number scales it to fifty-three bits and rounds it to a whole
number of its last ones.  So the result lies within half a unit, and it leaves the finite numbers
exactly from the middle between the greatest of them and the power of two behind it.

- `halfEven_near`, `le_halfEven_iff`, `halfEven_eq_zero_iff`: the nearest whole number;
- `floorLog2_spec`: the power of two below a quotient;
- `Binary64.nearest_spec`: the significand and the exponent of the nearest number;
- `Binary64.isFinite_ofRatio_iff`: **where the finite numbers end**;
- `Binary64.abs_value_ofRatio`: the nearest number lies between the powers of two around the quotient;
- `Binary64.scaled_spec`: where the multiples of a number are finite.
-/

namespace Stencil.Number

/-! ## Whole numbers -/

variable {num den : Nat}

/-- The nearest whole number is at most one half away. -/
theorem halfEven_near (num : Nat) (hden : 0 < den) :
    2 * num ≤ (2 * halfEven num den + 1) * den ∧ 2 * halfEven num den * den ≤ 2 * num + den := by
  have hdivmod := Nat.div_add_mod num den
  have hlt := Nat.mod_lt num hden
  unfold halfEven
  dsimp only
  generalize num / den = q at *
  generalize num % den = r at *
  split
  · constructor <;> nlinarith
  · split
    · constructor <;> nlinarith
    · rcases Nat.mod_two_eq_zero_or_one q with h | h <;> rw [h] <;> constructor <;> nlinarith

/-- A tie goes to an even number. -/
theorem halfEven_mod_two {q : Nat} (hden : 0 < den) (htie : 2 * num = (2 * q + 1) * den) :
    halfEven num den % 2 = 0 := by
  have hrest : 2 * (num - q * den) = den := by
    have hmul : (2 * q + 1) * den = 2 * (q * den) + den := by ring
    omega
  have hnum : num = den * q + (num - q * den) := by
    have hcomm : den * q = q * den := Nat.mul_comm _ _
    omega
  obtain ⟨hquotient, hmod⟩ : num / den = q ∧ num % den = num - q * den :=
    (Nat.div_mod_unique hden).mpr ⟨by omega, by omega⟩
  rw [halfEven, hquotient, hmod, hrest]
  simp only [Nat.lt_irrefl, if_false]
  omega

/-- An even number is reached from one half below it on. -/
theorem le_halfEven_iff {k : Nat} (hden : 0 < den) (hk : k % 2 = 0) :
    k ≤ halfEven num den ↔ 2 * k * den ≤ 2 * num + den := by
  obtain ⟨habove, hbelow⟩ := halfEven_near num hden
  constructor
  · intro h
    have hmul : k * den ≤ halfEven num den * den := Nat.mul_le_mul_right den h
    nlinarith
  · intro h
    by_contra hlt
    -- one less would be the other end of a tie, and odd
    have hless : halfEven num den + 1 ≤ k := by omega
    have hmul : (halfEven num den + 1) * den ≤ k * den := Nat.mul_le_mul_right den hless
    have htie : 2 * num = (2 * halfEven num den + 1) * den := by nlinarith
    have hexact : k * den = (halfEven num den + 1) * den := by nlinarith
    have heven := halfEven_mod_two hden htie
    have hodd := Nat.eq_of_mul_eq_mul_right hden hexact
    omega

/-- Nothing is left up to one half. -/
theorem halfEven_eq_zero_iff (hden : 0 < den) : halfEven num den = 0 ↔ 2 * num ≤ den := by
  obtain ⟨habove, hbelow⟩ := halfEven_near num hden
  constructor
  · intro h
    rw [h] at habove
    omega
  · intro h
    have hle : halfEven num den ≤ 1 := by
      by_contra hlt
      have hmul : 2 * den ≤ halfEven num den * den := Nat.mul_le_mul_right den (by omega)
      nlinarith
    by_contra hne
    have hone : halfEven num den = 1 := by omega
    rw [hone] at hbelow
    have heven := halfEven_mod_two (q := 0) hden (by omega : 2 * num = (2 * 0 + 1) * den)
    omega

/-! ## Powers of two -/

/-- The power of two below a quotient. -/
theorem floorLog2_spec (hnum : 0 < num) (hden : 0 < den) :
    (2 : ℚ) ^ Binary64.floorLog2 num den ≤ (num : ℚ) / den ∧
      (num : ℚ) / den < 2 ^ (Binary64.floorLog2 num den + 1) := by
  have hpos : (0 : ℚ) < den := Nat.cast_pos.mpr hden
  let guess : ℤ := (num.log2 : ℤ) - den.log2
  -- the comparison is the one with the power of two of the guess
  have hcompare : num * Nat.pow 2 (-guess).toNat < den * Nat.pow 2 guess.toNat ↔
      (num : ℚ) / den < 2 ^ guess := by
    rw [zpow_eq_div two_ne_zero, div_lt_div_iff₀ hpos (by positivity), mul_comm _ (den : ℚ)]
    simp only [Nat.pow_eq]
    exact_mod_cast Iff.rfl
  have hnumLow : (2 : ℚ) ^ num.log2 ≤ num := by exact_mod_cast Nat.log2_self_le hnum.ne'
  have hnumHigh : (num : ℚ) < 2 ^ (num.log2 + 1) := by exact_mod_cast Nat.lt_log2_self
  have hdenLow : (2 : ℚ) ^ den.log2 ≤ den := by exact_mod_cast Nat.log2_self_le hden.ne'
  have hdenHigh : (den : ℚ) < 2 ^ (den.log2 + 1) := by exact_mod_cast Nat.lt_log2_self
  have hlow : (2 : ℚ) ^ (guess - 1) ≤ (num : ℚ) / den := by
    rw [le_div_iff₀ hpos]
    calc (2 : ℚ) ^ (guess - 1) * den ≤ 2 ^ (guess - 1) * 2 ^ (den.log2 + 1) := by gcongr
      _ = 2 ^ num.log2 := by
        rw [← zpow_natCast, ← zpow_add₀ two_ne_zero, ← zpow_natCast]
        congr 1
        omega
      _ ≤ num := hnumLow
  have hhigh : (num : ℚ) / den < 2 ^ (guess + 1) := by
    rw [div_lt_iff₀ hpos]
    calc (num : ℚ) < 2 ^ (num.log2 + 1) := hnumHigh
      _ = 2 ^ (guess + 1) * 2 ^ den.log2 := by
        rw [← zpow_natCast, ← zpow_natCast, ← zpow_add₀ two_ne_zero]
        congr 1
        omega
      _ ≤ 2 ^ (guess + 1) * den := by gcongr
  unfold Binary64.floorLog2
  dsimp only
  by_cases hless : (num : ℚ) / den < 2 ^ guess
  · rw [if_pos (hcompare.mpr hless)]
    exact ⟨hlow, by rwa [sub_add_cancel]⟩
  · rw [if_neg (mt hcompare.mp hless)]
    exact ⟨not_lt.mp hless, hhigh⟩

namespace Binary64

variable {negative : Bool} {m : Nat} {e : ℤ}

/-! ## The nearest significand -/

/-- The quotient in units of `2 ^ e`. -/
theorem scaled_quotient (num den : Nat) (e : ℤ) :
    ((num * 2 ^ (-e).toNat : ℕ) : ℚ) / (den * 2 ^ e.toNat : ℕ) = (num : ℚ) / den / 2 ^ e := by
  rw [zpow_eq_div two_ne_zero]
  push_cast
  have hpos : (2 : ℚ) ^ (-e).toNat ≠ 0 := by positivity
  have hpos' : (2 : ℚ) ^ e.toNat ≠ 0 := by positivity
  rcases eq_or_ne (den : ℚ) 0 with hzero | hne
  · simp [hzero]
  · field_simp

/-- The significand and the exponent of the nearest number: the significand has fifty-three bits or
is the power of two behind these, and only at the least exponent it may have fewer. -/
theorem nearest_spec (hnum : 0 < num) (hden : 0 < den) (h : nearest 53 (-1074) num den = (m, e)) :
    e = max (floorLog2 num den - 52) (-1074) ∧
      m = halfEven (num * 2 ^ (-e).toNat) (den * 2 ^ e.toNat) ∧
      m ≤ 2 ^ 53 ∧ (-1074 < e → 2 ^ 52 ≤ m) := by
  obtain ⟨hm, he⟩ := Prod.mk.inj h
  replace he : e = max (floorLog2 num den - 52) (-1074) := he.symm
  replace hm : m = halfEven (num * 2 ^ (-e).toNat) (den * 2 ^ e.toNat) := by
    rw [← hm, he]
    rfl
  refine ⟨he, hm, ?_⟩
  obtain ⟨hlow, hhigh⟩ := floorLog2_spec hnum hden
  have hunits : 0 < den * 2 ^ e.toNat := Nat.mul_pos hden (Nat.two_pow_pos _)
  obtain ⟨habove, hbelow⟩ := halfEven_near (num * 2 ^ (-e).toNat) hunits
  rw [← hm] at habove hbelow
  have hquotient := scaled_quotient num den e
  have hpos : (0 : ℚ) < (den * 2 ^ e.toNat : ℕ) := Nat.cast_pos.mpr hunits
  have hpow : (0 : ℚ) < 2 ^ e := by positivity
  generalize num * 2 ^ (-e).toNat = n at *
  generalize den * 2 ^ e.toNat = d at *
  constructor
  · -- below `2 ^ 53` units
    have hlt : (n : ℚ) / d < (2 ^ 53 : ℕ) := by
      rw [hquotient, div_lt_iff₀ hpow]
      refine hhigh.trans_le ?_
      rw [Nat.cast_pow, Nat.cast_ofNat, ← zpow_natCast, ← zpow_add₀ two_ne_zero]
      exact zpow_le_zpow_right₀ one_le_two (by omega)
    rw [div_lt_iff₀ hpos] at hlt
    have hnat : n < 2 ^ 53 * d := by exact_mod_cast hlt
    by_contra hgreater
    have hmul : (2 ^ 53 + 1) * d ≤ m * d := Nat.mul_le_mul_right d (by omega)
    nlinarith
  · intro hleast
    -- at least `2 ^ 52` units
    have hle : ((2 ^ 52 : ℕ) : ℚ) ≤ (n : ℚ) / d := by
      rw [hquotient, le_div_iff₀ hpow]
      refine le_trans ?_ hlow
      rw [Nat.cast_pow, Nat.cast_ofNat, ← zpow_natCast, ← zpow_add₀ two_ne_zero]
      exact zpow_le_zpow_right₀ one_le_two (by omega)
    rw [le_div_iff₀ hpos] at hle
    have hnat : 2 ^ 52 * d ≤ n := by exact_mod_cast hle
    by_contra hless
    have hmul : (m + 1) * d ≤ 2 ^ 52 * d := Nat.mul_le_mul_right d (by omega)
    nlinarith

/-- From here on the nearest number is an infinity. -/
def limit : ℚ := 2 ^ 1024 - 2 ^ 970

theorem limit_eq : limit = (2 ^ 54 - 1) * 2 ^ (970 : ℤ) := by
  rw [limit, show (1024 : ℕ) = 54 + 970 from rfl, pow_add, sub_mul, one_mul, zpow_ofNat]

theorem zpow_lt_limit : (2 : ℚ) ^ (970 : ℤ) < limit := by
  rw [limit_eq]
  exact lt_mul_of_one_lt_left (by positivity) (by norm_num)

/-- The significands of the nearest numbers that are too large are those that have carried at the
greatest exponent, and those of greater ones. -/
theorem limit_le_iff (hnum : 0 < num) (hden : 0 < den)
    (h : nearest 53 (-1074) num den = (m, e)) :
    limit ≤ (num : ℚ) / den ↔ 971 < e ∨ e = 971 ∧ 2 ^ 53 ≤ m := by
  obtain ⟨he, hm, -, -⟩ := nearest_spec hnum hden h
  obtain ⟨hlow, hhigh⟩ := floorLog2_spec hnum hden
  have hpow : (0 : ℚ) < 2 ^ (970 : ℤ) := by positivity
  rcases lt_trichotomy e 971 with hless | heq | hgreater
  · refine iff_of_false (not_le.mpr (hhigh.trans_le ?_)) (by omega)
    calc (2 : ℚ) ^ (floorLog2 num den + 1) ≤ 2 ^ ((53 : ℕ) + 970 : ℤ) :=
          zpow_le_zpow_right₀ one_le_two (by omega)
      _ = 2 ^ 53 * 2 ^ (970 : ℤ) := by rw [zpow_add₀ two_ne_zero, zpow_natCast]
      _ ≤ (2 ^ 54 - 1) * 2 ^ (970 : ℤ) := by
        refine mul_le_mul_of_nonneg_right ?_ hpow.le
        norm_num
      _ = limit := limit_eq.symm
  · -- one half below the carry
    have hunits : 0 < den * 2 ^ e.toNat := Nat.mul_pos hden (Nat.two_pow_pos _)
    have hpos : (0 : ℚ) < (den * 2 ^ e.toNat : ℕ) := Nat.cast_pos.mpr hunits
    have hquotient := scaled_quotient num den e
    have hcarry : 2 ^ 53 ≤ halfEven (num * 2 ^ (-e).toNat) (den * 2 ^ e.toNat) ↔ _ :=
      le_halfEven_iff hunits (by norm_num)
    rw [← hm] at hcarry
    generalize num * 2 ^ (-e).toNat = n at *
    generalize den * 2 ^ e.toNat = d at *
    have hscaled : (num : ℚ) / den = n / d * 2 * 2 ^ (970 : ℤ) := by
      rw [hquotient, heq, show (971 : ℤ) = 970 + 1 from rfl, zpow_add_one₀ two_ne_zero]
      field_simp
    have hhalf : 2 * 2 ^ 53 * d ≤ 2 * n + d ↔ (2 : ℚ) ^ 54 - 1 ≤ n / d * 2 := by
      rw [div_mul_eq_mul_div, le_div_iff₀ hpos, ← Nat.cast_le (α := ℚ)]
      push_cast
      constructor <;> intro hle <;> linarith
    rw [limit_eq, hscaled, mul_le_mul_iff_of_pos_right hpow, ← hhalf, ← hcarry]
    omega
  · refine iff_of_true (le_trans ?_ hlow) (.inl hgreater)
    calc limit = (2 ^ 54 - 1) * 2 ^ (970 : ℤ) := limit_eq
      _ ≤ 2 ^ 54 * 2 ^ (970 : ℤ) := by
        refine mul_le_mul_of_nonneg_right ?_ hpow.le
        norm_num
      _ = 2 ^ ((54 : ℕ) + 970 : ℤ) := by rw [zpow_add₀ two_ne_zero, zpow_natCast]
      _ ≤ 2 ^ floorLog2 num den := zpow_le_zpow_right₀ one_le_two (by omega)

/-! ## The nearest number -/

/-- The number with these bits behind its sign. -/
def ofMagnitude (negative : Bool) (bits : Nat) : Binary64 :=
  ⟨UInt64.ofNat ((if negative then Nat.pow 2 63 else 0) + bits)⟩

theorem infinity_eq (negative : Bool) : infinity negative = ofMagnitude negative (2047 * 2 ^ 52) := by
  cases negative <;> decide

/-- The parts of a number are cut from its bits. -/
theorem parts_ofMagnitude (negative : Bool) (bits : Nat) (hbits : bits ≤ 2047 * 2 ^ 52) :
    (ofMagnitude negative bits).negative = negative ∧
      (ofMagnitude negative bits).exponentField = bits / 2 ^ 52 ∧
      (ofMagnitude negative bits).fraction = bits % 2 ^ 52 := by
  have htoNat : (ofMagnitude negative bits).bits.toNat =
      (if negative then 2 ^ 63 else 0) + bits := by
    rw [ofMagnitude, UInt64.toNat_ofNat', Nat.pow_eq]
    refine Nat.mod_eq_of_lt ?_
    split <;> omega
  simp only [Binary64.negative, exponentField, fraction, htoNat, Nat.pow_eq]
  cases negative with
  | true =>
    rw [if_pos rfl]
    exact ⟨decide_eq_true (by omega), by omega, by omega⟩
  | false =>
    rw [if_neg Bool.false_ne_true, Nat.zero_add]
    exact ⟨decide_eq_false (by omega), by omega, by omega⟩

/-- The bits of the nearest number: a significand carries its leading bit into the exponent. -/
theorem ofRatio_eq (hnum : 0 < num) (hden : 0 < den)
    (h : nearest 53 (-1074) num den = (m, e)) :
    ofRatio negative num den = if limit ≤ (num : ℚ) / den then infinity negative
      else ofMagnitude negative ((e + 1074).toNat * 2 ^ 52 + m) := by
  obtain ⟨he, -, hmost, hleast⟩ := nearest_spec hnum hden h
  have hlimit : 2047 * Nat.pow 2 52 ≤ (e + 1074).toNat * Nat.pow 2 52 + m ↔
      limit ≤ (num : ℚ) / den := by
    rw [limit_le_iff hnum hden h, Nat.pow_eq]
    omega
  rw [ofRatio, if_neg (by omega), h]
  dsimp only
  by_cases hlarge : limit ≤ (num : ℚ) / den
  · rw [if_pos (hlimit.mpr hlarge), if_pos hlarge]
  · rw [if_neg (mt hlimit.mp hlarge), if_neg hlarge]
    rfl

/-- From the limit on an infinity is nearest. -/
theorem ofRatio_of_limit_le (hnum : 0 < num) (hden : 0 < den) (hlarge : limit ≤ (num : ℚ) / den) :
    ofRatio negative num den = infinity negative := by
  obtain ⟨m, e, h⟩ : ∃ m e, nearest 53 (-1074) num den = (m, e) := ⟨_, _, rfl⟩
  rw [ofRatio_eq hnum hden h, if_pos hlarge]

/-- **Where the finite numbers end.** -/
theorem isFinite_ofRatio_iff (hnum : 0 < num) (hden : 0 < den) :
    (ofRatio negative num den).isFinite = true ↔ (num : ℚ) / den < limit := by
  by_cases hlarge : limit ≤ (num : ℚ) / den
  · rw [ofRatio_of_limit_le hnum hden hlarge]
    refine iff_of_false ?_ (not_lt.mpr hlarge)
    cases negative <;> decide
  · obtain ⟨m, e, h⟩ : ∃ m e, nearest 53 (-1074) num den = (m, e) := ⟨_, _, rfl⟩
    obtain ⟨he, -, hmost, -⟩ := nearest_spec hnum hden h
    have hbounds := mt (limit_le_iff hnum hden h).mpr hlarge
    obtain ⟨-, hfield, -⟩ :=
      parts_ofMagnitude negative ((e + 1074).toNat * 2 ^ 52 + m) (by omega)
    rw [ofRatio_eq hnum hden h, if_neg hlarge, isFinite, hfield, decide_eq_true_iff]
    exact iff_of_true (by omega) (not_le.mp hlarge)

/-- The sign of the nearest number is the one that it is given. -/
theorem negative_ofRatio (hnum : 0 < num) (hden : 0 < den) :
    (ofRatio negative num den).negative = negative := by
  by_cases hlarge : limit ≤ (num : ℚ) / den
  · rw [ofRatio_of_limit_le hnum hden hlarge, infinity_eq]
    exact (parts_ofMagnitude negative _ (le_refl _)).1
  · obtain ⟨m, e, h⟩ : ∃ m e, nearest 53 (-1074) num den = (m, e) := ⟨_, _, rfl⟩
    obtain ⟨he, -, hmost, -⟩ := nearest_spec hnum hden h
    have hbounds := mt (limit_le_iff hnum hden h).mpr hlarge
    rw [ofRatio_eq hnum hden h, if_neg hlarge]
    exact (parts_ofMagnitude negative _ (by omega)).1

/-- The magnitude of the nearest number is its significand in units of its exponent, also behind a
carry. -/
theorem abs_value_ofRatio_eq (hnum : 0 < num) (hden : 0 < den) (hfinite : (num : ℚ) / den < limit)
    (h : nearest 53 (-1074) num den = (m, e)) :
    |(ofRatio negative num den).value| = m * 2 ^ e := by
  obtain ⟨he, -, hmost, hleast⟩ := nearest_spec hnum hden h
  have hbounds := mt (limit_le_iff hnum hden h).mpr (not_le.mpr hfinite)
  obtain ⟨-, hfield, hfraction⟩ :=
    parts_ofMagnitude negative ((e + 1074).toNat * 2 ^ 52 + m) (by omega)
  rw [ofRatio_eq hnum hden h, if_neg (not_le.mpr hfinite), abs_value, ← magnitude_eq, significand,
    exponent, hfield, hfraction, Nat.pow_eq]
  by_cases hcarry : m = 2 ^ 53
  · have hup : ((e + 1074).toNat * 2 ^ 52 + m) / 2 ^ 52 = (e + 1076).toNat := by omega
    have hnone : ((e + 1074).toNat * 2 ^ 52 + m) % 2 ^ 52 = 0 := by omega
    rw [hup, hnone, if_neg (by omega), hcarry,
      show (max ((e + 1076).toNat : ℤ) 1 - 1075) = e + 1 by omega, zpow_add_one₀ two_ne_zero]
    norm_num
    ring
  · by_cases hnormal : 2 ^ 52 ≤ m
    · have hup : ((e + 1074).toNat * 2 ^ 52 + m) / 2 ^ 52 = (e + 1075).toNat := by omega
      have hrest : 2 ^ 52 + ((e + 1074).toNat * 2 ^ 52 + m) % 2 ^ 52 = m := by omega
      rw [hup, if_neg (by omega), hrest,
        show (max ((e + 1075).toNat : ℤ) 1 - 1075) = e by omega]
    · obtain rfl : e = -1074 := by omega
      have hzero : ((-1074 + 1074 : ℤ).toNat * 2 ^ 52 + m) / 2 ^ 52 = 0 := by omega
      have hrest : ((-1074 + 1074 : ℤ).toNat * 2 ^ 52 + m) % 2 ^ 52 = m := by omega
      rw [hzero, if_pos rfl, hrest]
      rfl

/-- **The nearest number lies between the powers of two around the quotient**, unless that is too
small for all of its bits. -/
theorem abs_value_ofRatio (hnum : 0 < num) (hden : 0 < den) (hfinite : (num : ℚ) / den < limit)
    (hnormal : -1022 < floorLog2 num den) :
    (2 : ℚ) ^ floorLog2 num den ≤ |(ofRatio negative num den).value| ∧
      |(ofRatio negative num den).value| ≤ 2 ^ (floorLog2 num den + 1) := by
  obtain ⟨m, e, h⟩ : ∃ m e, nearest 53 (-1074) num den = (m, e) := ⟨_, _, rfl⟩
  obtain ⟨he, hm, hmost, hleast⟩ := nearest_spec hnum hden h
  have hexponent : floorLog2 num den = 52 + e := by omega
  have hpow : (0 : ℚ) < 2 ^ e := by positivity
  have hlow : (2 : ℚ) ^ (52 : ℤ) ≤ m := by exact_mod_cast hleast (by omega)
  have hhigh : (m : ℚ) ≤ 2 ^ (53 : ℤ) := by exact_mod_cast hmost
  rw [abs_value_ofRatio_eq hnum hden hfinite h, hexponent]
  constructor
  · rw [zpow_add₀ two_ne_zero]
    exact mul_le_mul_of_nonneg_right hlow hpow.le
  · rw [show 52 + e + 1 = 53 + e by omega, zpow_add₀ two_ne_zero]
    exact mul_le_mul_of_nonneg_right hhigh hpow.le

/-! ## Multiples -/

/-- A multiple is finite up to the limit, and from there on an infinity of the same sign. -/
theorem scaled_spec {x : Binary64} {k : Nat} (hfinite : x.isFinite = true) :
    ((x.scaled k 1).isFinite = true ↔ k * |x.value| < limit) ∧
      (limit ≤ k * |x.value| → x.scaled k 1 = infinity x.negative) := by
  have hmultiple : ((x.numerator * k : ℕ) : ℚ) / (x.denominator * 1 : ℕ) = k * |x.value| := by
    rw [abs_value, Nat.mul_one, Nat.cast_mul, mul_comm (x.numerator : ℚ), mul_div_assoc]
  have hden : 0 < x.denominator * 1 := by
    rw [Nat.mul_one]
    exact x.denominator_pos
  rw [scaled, if_pos hfinite, ← hmultiple]
  rcases Nat.eq_zero_or_pos (x.numerator * k) with hzero | hnum
  · have hlimit : (0 : ℚ) < limit := by
      rw [limit_eq]
      exact mul_pos (by norm_num) (by positivity)
    rw [hzero, Nat.cast_zero, zero_div]
    refine ⟨iff_of_true ?_ hlimit, fun hle => absurd hlimit (not_lt.mpr hle)⟩
    rw [ofRatio, if_pos (.inl rfl)]
    cases x.negative <;> decide
  · exact ⟨isFinite_ofRatio_iff hnum hden, ofRatio_of_limit_le hnum hden⟩

end Binary64

end Stencil.Number
