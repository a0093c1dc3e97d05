import Stencil.Proofs.Locale.Grouping
import Stencil.Proofs.Number.Digits
import Stencil.Proofs.Text.Cut

/-!
# Decimals that can be read back

A locale writes a number with its own decimal separator and perhaps its own separator between groups
of digits.  What separates groups in one locale is the decimal point of another, but within one
locale the two differ from each other and from every digit.  So the plain decimal comes back when
the groups are joined and the decimal separator is made a point.

- `Conventions.decimalText_eq`: the parts of a number in a locale, and of the plain number;
- `Conventions.filter_isDigit_decimalText`: the digits among these;
- `Conventions.decimalText_restores`: **taking the separators back gives the plain number**, and the
  groups are where they have to be.
-/

namespace Stencil.Conventions

open Number

/-- The separators of a row of the table are no digits, and different. -/
theorem separators_apart : ∀ c ∈ conventionsTable,
    c.groupingSeparator.isDigit = false ∧ c.decimalSeparator.isDigit = false ∧
      c.decimalSeparator ≠ c.groupingSeparator := by
  decide

variable {x : Binary64}

/-- The parts of a number in a locale, and of the plain number. -/
theorem decimalText_eq (c : Conventions) (h : x.isFinite = true) (places : Nat) (grouped : Bool) :
    ∃ whole fraction : List Char, whole ≠ [] ∧ fraction.length = places ∧
      (∀ d ∈ whole ++ fraction, d.isDigit = true) ∧
      x.fixedMagnitude places = whole ++ fractionPart '.' fraction ∧
      c.decimalText x places grouped =
        (if grouped then groupDigits c.groupingSeparator whole else whole) ++
          fractionPart c.decimalSeparator fraction := by
  obtain ⟨whole, fraction, htext, hwhole, hplaces, hdigits⟩ :
      ∃ whole fraction, x.fixedMagnitude places = whole ++ fractionPart '.' fraction ∧ _ :=
    withPoint_eq places (halfEven (x.numerator * Nat.pow 10 places) x.denominator)
  have hpoint : '.' ∉ whole := fun hmem =>
    absurd (hdigits _ (List.mem_append_left _ hmem)) (by decide)
  refine ⟨whole, fraction, hwhole, hplaces, hdigits, htext, ?_⟩
  rw [decimalText, Binary64.fixed_abs h, htext]
  by_cases hnone : fraction = []
  · have hcut : Text.splitOnce '.' (whole ++ fractionPart '.' fraction) = none := by
      rw [fractionPart, if_pos hnone, List.append_nil]
      exact Text.splitOnce_eq_none.mpr hpoint
    rw [hcut]
    simp only [fractionPart, if_pos hnone, List.append_nil]
  · have hcut : Text.splitOnce '.' (whole ++ fractionPart '.' fraction) = some (whole, fraction) := by
      rw [fractionPart, if_neg hnone]
      exact Text.splitOnce_eq_some.mpr ⟨rfl, hpoint⟩
    rw [hcut]
    simp only [fractionPart, if_neg hnone]

/-- A number of a locale without the separators of its groups and with a decimal point. -/
def plain (c : Conventions) (text : List Char) : List Char :=
  (text.filter (· ≠ c.groupingSeparator)).map fun d => if d = c.decimalSeparator then '.' else d

theorem plain_append (c : Conventions) (s t : List Char) :
    c.plain (s ++ t) = c.plain s ++ c.plain t := by
  rw [plain, List.filter_append, List.map_append, plain, plain]

section

variable {c : Conventions} (hc : c ∈ conventionsTable) {digits : List Char}
  (hdigits : ∀ d ∈ digits, d.isDigit = true)

include hc hdigits

theorem separators_not_mem : c.groupingSeparator ∉ digits ∧ c.decimalSeparator ∉ digits := by
  obtain ⟨hgrouping, hdecimal, -⟩ := separators_apart c hc
  constructor
  · intro hmem
    exact Bool.false_ne_true (hgrouping.symm.trans (hdigits _ hmem))
  · intro hmem
    exact Bool.false_ne_true (hdecimal.symm.trans (hdigits _ hmem))

theorem map_pointed : digits.map (fun d => if d = c.decimalSeparator then '.' else d) = digits := by
  refine (List.map_congr_left fun d hd => if_neg ?_).trans (List.map_id _)
  rintro rfl
  exact (separators_not_mem hc hdigits).2 hd

theorem plain_digits : c.plain digits = digits := by
  have hfilter : digits.filter (· ≠ c.groupingSeparator) = digits := by
    refine List.filter_eq_self.mpr fun d hd => decide_eq_true ?_
    rintro rfl
    exact (separators_not_mem hc hdigits).1 hd
  rw [plain, hfilter, map_pointed hc hdigits]

theorem plain_groupDigits : c.plain (groupDigits c.groupingSeparator digits) = digits := by
  rw [plain, filter_groupDigits (separators_not_mem hc hdigits).1, map_pointed hc hdigits]

theorem plain_fractionPart :
    c.plain (fractionPart c.decimalSeparator digits) = fractionPart '.' digits := by
  obtain ⟨-, -, hapart⟩ := separators_apart c hc
  have hseparator : c.plain [c.decimalSeparator] = ['.'] := by simp [plain, hapart]
  unfold fractionPart
  split
  · rfl
  · rw [← List.singleton_append, plain_append, hseparator, plain_digits hc hdigits]
    rfl

theorem groupingSeparator_not_mem_fractionPart :
    c.groupingSeparator ∉ fractionPart c.decimalSeparator digits := by
  obtain ⟨-, -, hapart⟩ := separators_apart c hc
  unfold fractionPart
  split
  · exact List.not_mem_nil
  · exact List.not_mem_cons_of_ne_of_not_mem hapart.symm (separators_not_mem hc hdigits).1

end

section

variable {c : Conventions} (hc : c ∈ conventionsTable) (h : x.isFinite = true) (places : Nat)
  (grouped : Bool)

include hc h

/-- The digits of a number in a locale are those of the magnitude. -/
theorem filter_isDigit_decimalText : (c.decimalText x places grouped).filter (·.isDigit) =
    padded (places + 1) (halfEven (x.numerator * 10 ^ places) x.denominator) := by
  obtain ⟨hgrouping, hdecimal, -⟩ := separators_apart c hc
  obtain ⟨whole, fraction, -, -, hdigits, hmagnitude, htext⟩ := c.decimalText_eq h places grouped
  obtain ⟨hwhole, hfraction⟩ := List.forall_mem_append.mp hdigits
  have hbody : (if grouped then groupDigits c.groupingSeparator whole else whole).filter
      (·.isDigit) = whole := by
    split
    · exact filter_isDigit_groupDigits hgrouping hwhole
    · exact List.filter_eq_self.mpr hwhole
  calc (c.decimalText x places grouped).filter (·.isDigit)
      = whole ++ fraction := by
        rw [htext, List.filter_append, hbody, filter_isDigit_fractionPart hdecimal hfraction]
    _ = (x.fixedMagnitude places).filter (·.isDigit) := by
        rw [hmagnitude, List.filter_append, List.filter_eq_self.mpr hwhole,
          filter_isDigit_fractionPart (by decide) hfraction]
    _ = padded (places + 1) (halfEven (x.numerator * 10 ^ places) x.denominator) :=
        filter_isDigit_withPoint places _

/-- What is no digit in it is a separator of the locale. -/
theorem separator_of_mem_decimalText {d : Char} (hd : d ∈ c.decimalText x places grouped)
    (hother : d.isDigit = false) : d = c.groupingSeparator ∨ d = c.decimalSeparator := by
  obtain ⟨whole, fraction, -, -, hdigits, -, htext⟩ := c.decimalText_eq h places grouped
  obtain ⟨hwhole, hfraction⟩ := List.forall_mem_append.mp hdigits
  have hapart (digits : List Char) (hall : ∀ d ∈ digits, d.isDigit = true) : d ∉ digits :=
    fun hmem => Bool.false_ne_true (hother ▸ hall d hmem)
  rcases List.mem_append.mp (htext ▸ hd) with hd | hd
  · left
    split at hd
    · by_contra hne
      refine hapart whole hwhole ?_
      rw [← filter_groupDigits (separators_not_mem hc hwhole).1]
      exact List.mem_filter.mpr ⟨hd, decide_eq_true hne⟩
    · exact absurd hd (hapart whole hwhole)
  · right
    unfold fractionPart at hd
    split at hd
    · cases hd
    · rcases List.mem_cons.mp hd with rfl | hd
      · rfl
      · exact absurd hd (hapart fraction hfraction)

end

/-- **Taking the separators back gives the plain number.**  Its whole part is written as it is, or as
a first group of one to three digits and then groups of three; as it is, it has no separator of
groups in it. -/
theorem decimalText_restores {c : Conventions} (hc : c ∈ conventionsTable)
    (h : x.isFinite = true) (places : Nat) (grouped : Bool) :
    let text := c.decimalText x places grouped
    c.plain text = x.fixedMagnitude places ∧
      ∃ whole fraction, x.fixedMagnitude places = whole ++ fractionPart '.' fraction ∧
        (∀ d ∈ whole ++ fraction, d.isDigit = true) ∧ fraction.length = places ∧
        if grouped then
          ∃ first rest, Groups whole first rest ∧
            text = [c.groupingSeparator].intercalate (first :: rest) ++
              fractionPart c.decimalSeparator fraction
        else
          text = whole ++ fractionPart c.decimalSeparator fraction ∧ c.groupingSeparator ∉ text := by
  intro text
  obtain ⟨whole, fraction, hwhole, hplaces, hdigits, hnumber, (htext : text = _)⟩ :=
    c.decimalText_eq h places grouped
  have hdigitsWhole : ∀ d ∈ whole, d.isDigit = true :=
    fun d hd => hdigits d (List.mem_append_left _ hd)
  have hdigitsFraction : ∀ d ∈ fraction, d.isDigit = true :=
    fun d hd => hdigits d (List.mem_append_right _ hd)
  have hplain : c.plain text = x.fixedMagnitude places := by
    have hbody : c.plain (if grouped then groupDigits c.groupingSeparator whole else whole) =
        whole := by
      split
      · exact plain_groupDigits hc hdigitsWhole
      · exact plain_digits hc hdigitsWhole
    rw [htext, plain_append, hbody, plain_fractionPart hc hdigitsFraction, hnumber]
  refine ⟨hplain, whole, fraction, hnumber, hdigits, hplaces, ?_⟩
  cases grouped with
  | true =>
    obtain ⟨first, rest, hgroups, hgrouped⟩ := groupDigits_eq c.groupingSeparator hwhole
    exact ⟨first, rest, hgroups, htext.trans (congrArg (· ++ _) hgrouped)⟩
  | false =>
    refine ⟨htext, fun hmem => ?_⟩
    rcases List.mem_append.mp (htext ▸ hmem) with hmem | hmem
    · exact (separators_not_mem hc hdigitsWhole).1 hmem
    · exact groupingSeparator_not_mem_fractionPart hc hdigitsFraction hmem

/-- In German the groups are separated by points. -/
theorem decimalText_restores_german :
    let x : Binary64 := ⟨0x4132D68780000000⟩
    let text := german.decimalText x 2 true
    (german ∈ conventionsTable ∧ x.isFinite = true) ∧ text = "1.234.567,50".toList ∧
      german.plain text = "1234567.50".toList ∧
      ∃ whole fraction first rest, Groups whole first rest ∧ fraction.length = 2 ∧
        text = ['.'].intercalate (first :: rest) ++ fractionPart ',' fraction := by
  intro x text
  have hgerman : german ∈ conventionsTable := by decide
  have hfinite : x.isFinite = true := by decide
  have hnumber : x.fixedMagnitude 2 = "1234567.50".toList := by decide +kernel
  obtain ⟨hplain, whole, fraction, -, -, hplaces, first, rest, hgroups, htext⟩ :=
    decimalText_restores hgerman hfinite 2 true
  exact ⟨⟨hgerman, hfinite⟩, by decide +kernel, hplain.trans hnumber,
    whole, fraction, first, rest, hgroups, hplaces, htext⟩

end Stencil.Conventions
