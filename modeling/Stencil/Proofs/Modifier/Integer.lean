import Stencil.Proofs.Modifier.Spelling
import Stencil.Proofs.Number.Value
import Stencil.Proofs.Locale.Grouping
import Mathlib.Tactic.NormNum

/-!
# Whole numbers in conversions

An integer conversion takes a number for an integer of 128 bits.  That is exact for every integer
of 64 bits, but binary64 numbers reach much further: a whole one beyond the bounds is written as the
bound that it is nearest to.

- `Numeral.value?`: the rational number that a number is;
- `wholeNumber?_eq`: the integer that a whole number is taken for;
- `expand_text`: the text of a pattern that is a single conversion;
- `expand_integer`: **a whole number is written with its own digits exactly within the bounds**, with
  and without grouping.
-/

namespace Stencil

open Number

/-! ## Values -/

/-- The value of a number, if it is finite. -/
def Numeral.value? : Numeral → Option ℚ
  | .signed n => some n.toInt
  | .unsigned n => some n.toNat
  | .binary x => if x.isFinite then some x.value else none

/-- The value of a binary64 number from its parts. -/
theorem Numeral.value?_binary {x : Binary64} {b : Bool} {m : Nat} {e : Int}
    (hfinite : x.isFinite = true) (hparts : (x.negative, x.significand, x.exponent) = (b, m, e)) :
    (Numeral.binary x).value? = some (((if b then -1 else 1) * m * 2 ^ e : ℚ)) := by
  obtain ⟨rfl, rfl, rfl⟩ := hparts
  rw [value?, if_pos hfinite, Binary64.value]

namespace Conversion

/-- The integer of 128 bits that is nearest to an integer. -/
def nearestWhole (v : Int) : Int := max (-wholeBound) (min (wholeBound - 1) v)

theorem wholeBound_eq : wholeBound = 170141183460469231731687303715884105728 := rfl

/-- An integer is the nearest one to itself exactly within the bounds. -/
theorem nearestWhole_eq_iff {v : Int} :
    nearestWhole v = v ↔ -wholeBound ≤ v ∧ v < wholeBound := by
  rw [nearestWhole, wholeBound_eq]
  omega

/-- Integers of 64 bits are within the bounds. -/
theorem within_of_isInteger {n : Numeral} {v : Int} (h : n.value? = some (v : ℚ))
    (hinteger : n.isInteger = true) : -wholeBound ≤ v ∧ v < wholeBound := by
  rw [wholeBound_eq]
  cases n with
  | signed n =>
    obtain rfl : n.toInt = v := by exact_mod_cast Option.some.inj h
    have hleast := n.le_toInt
    have hgreatest := n.toInt_lt
    omega
  | unsigned n =>
    obtain rfl : (n.toNat : Int) = v := by exact_mod_cast Option.some.inj h
    have hgreatest : n.toNat < 18446744073709551616 := n.toNat_lt
    omega
  | binary x => cases hinteger

/-- A whole number is taken for the nearest integer of 128 bits. -/
theorem wholeNumber?_eq {n : Numeral} {v : Int} (h : n.value? = some (v : ℚ)) :
    wholeNumber? (.number n) = some (nearestWhole v) := by
  cases n with
  | signed n =>
    rw [nearestWhole_eq_iff.mpr (within_of_isInteger h rfl)]
    obtain rfl : n.toInt = v := by exact_mod_cast Option.some.inj h
    rfl
  | unsigned n =>
    rw [nearestWhole_eq_iff.mpr (within_of_isInteger h rfl)]
    obtain rfl : (n.toNat : Int) = v := by exact_mod_cast Option.some.inj h
    rfl
  | binary x =>
    rw [Numeral.value?] at h
    split at h
    · next hfinite =>
      -- whole numbers of every magnitude come this far, and only the clamp bounds them
      obtain ⟨hwhole, htruncated⟩ := Binary64.whole_of_value_eq hfinite (Option.some.inj h)
      have hnumber := Binary64.isNaN_of_isFinite hfinite
      simp [wholeNumber?, hwhole, Binary64.clamped, hnumber, hfinite, htruncated, nearestWhole]
    · cases h

/-! ## Texts -/

/-- The text of a pattern that is a single conversion. -/
theorem expand_text {w : Spelling} (hw : w.Valid) (value : Scalar) (c : Conventions) :
    expand (String.ofList ('%' :: w.text)) value c = String.ofList (w.spec.render value c) := by
  have hread : Spec.read? w.text = some (w.spec, []) := by simpa using hw.read? []
  have hnone (fuel : Nat) : expandFrom value c fuel [] = [] := by cases fuel <;> rfl
  rw [expand, String.length_ofList, String.toList_ofList, List.length_cons, expandFrom, hread]
  simp only [hnone, List.append_nil]

/-- A whole number without a width is its sign and its digits. -/
theorem render_integer {spec : Spec} {value : Scalar} {v : Int} (hkind : spec.kind = .integer)
    (hwidth : spec.width = none) (hplus : spec.plus = false) (hspace : spec.space = false)
    (hvalue : wholeNumber? value = some v) (c : Conventions) :
    spec.render value c =
      let digits := decimal v.natAbs
      let body := if spec.group then groupDigits c.groupingSeparator digits else digits
      if v < 0 then '-' :: body else body := by
  have hrender : spec.render value c = spec.pad (spec.body value c) := by
    simp only [Spec.render, hkind]
  have hpad (b : Body) : spec.pad b = b.sign ++ b.digits := by
    simp only [Spec.pad, hwidth, Option.getD_none, Nat.zero_sub, List.replicate_zero,
      List.append_nil, List.nil_append]
    split
    · rfl
    · split <;> rfl
  simp only [hrender, hpad, Spec.body, hkind, hvalue, Body.ofNumber, hplus, hspace]
  by_cases hnegative : v < 0 <;> simp [hnegative]

/-- An integer conversion under no flag but perhaps the one for groups. -/
def integerSpelling (flags : List Char) : Spelling := ⟨flags, [], none, .integer⟩

theorem integerSpelling_valid {flags : List Char} (h : flags ⊆ [',']) :
    (integerSpelling flags).Valid where
  flags c hc := by
    obtain rfl := List.mem_singleton.mp (h hc)
    decide
  width := nofun
  leading := nofun
  precision := nofun
  widthFits := Nat.zero_le 4096
  precisionFits := nofun

/-- Taking the separators away leaves the sign and the digits of a grouped number. -/
theorem filter_grouped (l : Locale) (v : Int) :
    let separator := l.conventions.groupingSeparator
    let body := groupDigits separator (decimal v.natAbs)
    (if v < 0 then '-' :: body else body).filter (· ≠ separator) = signedDecimal v := by
  intro separator body
  obtain ⟨hdigit, hminus⟩ := l.separator_apart
  have hapart : separator ∉ decimal v.natAbs := by
    intro hmem
    rw [isDigit_of_mem_decimal hmem] at hdigit
    cases hdigit
  have hbody : body.filter (· ≠ separator) = decimal v.natAbs := filter_groupDigits hapart
  rw [signedDecimal]
  split
  · rw [List.filter_cons_of_pos (by simpa using hminus.symm), hbody]
  · exact hbody

/-- **What is written for a whole number**: the digits of the nearest integer of 128 bits, behind a
minus sign when it is negative.  With the flag for groups the same characters come out as soon as
the separators are taken away.  They are those of the number itself exactly within the bounds, where
every integer of 64 bits lies. -/
theorem expand_integer {n : Numeral} {v : Int} (h : n.value? = some (v : ℚ)) (l : Locale) :
    let c := l.conventions
    let plain := (expand "%d" (.number n) c).toList
    let grouped := (expand "%,d" (.number n) c).toList.filter (· ≠ c.groupingSeparator)
    plain = signedDecimal (nearestWhole v) ∧ grouped = signedDecimal (nearestWhole v) ∧
      (plain = signedDecimal v ↔ -wholeBound ≤ v ∧ v < wholeBound) ∧
      (grouped = signedDecimal v ↔ -wholeBound ≤ v ∧ v < wholeBound) ∧
      (n.isInteger = true → -wholeBound ≤ v ∧ v < wholeBound) := by
  intro c plain grouped
  have hvalue := wholeNumber?_eq h
  have hplain : plain = signedDecimal (nearestWhole v) := by
    have htext := expand_text (integerSpelling_valid (List.nil_subset _)) (.number n) c
    rw [render_integer rfl rfl rfl rfl hvalue] at htext
    exact (congrArg String.toList htext).trans String.toList_ofList
  have hgrouped : grouped = signedDecimal (nearestWhole v) := by
    have htext := expand_text (integerSpelling_valid (List.Subset.refl _)) (.number n) c
    rw [render_integer rfl rfl rfl rfl hvalue] at htext
    have hlist := (congrArg String.toList htext).trans String.toList_ofList
    exact (congrArg (List.filter (· ≠ c.groupingSeparator)) hlist).trans (filter_grouped l _)
  have hexact : signedDecimal (nearestWhole v) = signedDecimal v ↔
      -wholeBound ≤ v ∧ v < wholeBound := by
    rw [← nearestWhole_eq_iff]
    exact ⟨signedDecimal_injective, congrArg signedDecimal⟩
  refine ⟨hplain, hgrouped, ?_, ?_, within_of_isInteger h⟩
  · rw [hplain, hexact]
  · rw [hgrouped, hexact]

/-- The least integer of 128 bits is a binary64 number, and in German it is grouped by points. -/
theorem expand_integer_least :
    let n : Numeral := .binary ⟨0xC7E0000000000000⟩
    let c := (⟨"de", none⟩ : Locale).conventions
    n.value? = some ((-wholeBound : Int) : ℚ) ∧
      (expand "%d" (.number n) c).toList = "-170141183460469231731687303715884105728".toList ∧
      (expand "%,d" (.number n) c).toList.filter (· ≠ '.') =
        "-170141183460469231731687303715884105728".toList := by
  intro n c
  have hvalue : n.value? = some ((-wholeBound : Int) : ℚ) := by
    rw [Numeral.value?_binary (b := true) (m := 4503599627370496) (e := 75) (by decide) (by decide),
      wholeBound_eq]
    norm_num
  obtain ⟨hplain, hgrouped, -⟩ := expand_integer hvalue ⟨"de", none⟩
  exact ⟨hvalue, hplain.trans (by decide +kernel), hgrouped.trans (by decide +kernel)⟩

/-- **Beyond the bounds another number is written**: for the whole number `2 ^ 127` it is the one
that is smaller by one. -/
theorem expand_integer_beyond :
    let n : Numeral := .binary ⟨0x47E0000000000000⟩
    let v : Int := 170141183460469231731687303715884105728
    let c := Locale.default.conventions
    n.value? = some (v : ℚ) ∧
      expand "%d" (.number n) c = "170141183460469231731687303715884105727" ∧
      (expand "%d" (.number n) c).toList ≠ signedDecimal v ∧
      (expand "%,d" (.number n) c).toList.filter (· ≠ c.groupingSeparator) ≠ signedDecimal v := by
  intro n v c
  refine ⟨?_, by decide +kernel, by decide +kernel, by decide +kernel⟩
  rw [Numeral.value?_binary (b := false) (m := 4503599627370496) (e := 75) (by decide) (by decide)]
  norm_num [v]

end Conversion

end Stencil
