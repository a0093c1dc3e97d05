import Stencil.Modifier.Conversion
import Stencil.Proofs.Text.Cut

/-!
# How conversions are written

A conversion is written, behind its percent sign, as flags, the digits of a width, a point with the
digits of a precision, and a letter.  A zero in front of a width is a flag, so that a width starts
with another digit; a precision may start with zeros, or have no digits at all and be zero.  Widths
and precisions go up to 4096.

- `Kind.letter`: the letter of a conversion;
- `Spelling`: the parts of a written conversion, with `text` the characters in their order and
  `spec` the conversion that they ask for;
- `Spelling.Valid`: the parts are as they have to be;
- `Spec.read?_eq_some`: **what is read as a conversion is one of these texts**, and each of them is
  read as the conversion that it asks for, whatever follows it;
- `Spelling.Valid.unique`: a text starts with at most one of them.
-/

namespace Stencil.Conversion

open Number

/-! ## Letters -/

namespace Kind

/-- The letter of a conversion. -/
def letter : Kind → Char
  | .text => 's'
  | .capitals => 'S'
  | .truth => 'b'
  | .integer => 'd'
  | .hex false => 'x'
  | .hex true => 'X'
  | .places => 'f'
  | .exponent => 'e'
  | .percent => '%'
  | .lineFeed => 'n'

theorem ofLetter?_eq_some {c : Char} {kind : Kind} :
    ofLetter? c = some kind ↔ c = kind.letter := by
  constructor
  · intro h
    unfold ofLetter? at h
    split at h <;> cases h <;> rfl
  · rintro rfl
    match kind with
    | .hex false => rfl
    | .hex true => rfl
    | .text | .capitals | .truth | .integer | .places | .exponent | .percent | .lineFeed => rfl

/-- A letter is no flag, no digit and no point, so that it ends whatever stands in front of it. -/
theorem letter_ends (kind : Kind) :
    isFlag kind.letter = false ∧ kind.letter.isDigit = false ∧ kind.letter ≠ '.' := by
  match kind with
  | .hex false => decide
  | .hex true => decide
  | .text | .capitals | .truth | .integer | .places | .exponent | .percent | .lineFeed => decide

end Kind

/-! ## Digits -/

/-- The number that digits write. -/
def valueOf (digits : List Char) : Nat := Nat.ofDigitChars 10 digits 0

theorem digitValue?_of_isDigit {c : Char} (h : c.isDigit = true) :
    digitValue? c = some (c.toNat - 48) := by
  refine if_pos ?_
  simpa [Char.isDigit, Char.le_def] using h

/-- A field is the number that its digits write; without digits there is none. -/
theorem fieldValue_eq {digits : List Char} (h : ∀ c ∈ digits, c.isDigit = true) :
    fieldValue digits = if digits = [] then none else some (valueOf digits) := by
  have hfold (n : Nat) : digits.foldl (fun n c => n * 10 + (digitValue? c).getD 0) n =
      Nat.ofDigitChars 10 digits n := by
    induction digits generalizing n with
    | nil => rfl
    | cons c rest ih =>
      obtain ⟨hc, hrest⟩ := List.forall_mem_cons.mp h
      rw [List.foldl_cons, ih hrest, digitValue?_of_isDigit hc, Nat.mul_comm]
      rfl
  unfold fieldValue valueOf
  rw [hfold]
  cases digits <;> rfl

theorem fits_some (n : Nat) : fits (some n) = true ↔ n ≤ 4096 := decide_eq_true_iff

/-- A field of digits fits when its number does, and so does one without digits. -/
theorem fits_iff {digits : List Char} (h : ∀ c ∈ digits, c.isDigit = true) :
    fits (fieldValue digits) = true ↔ valueOf digits ≤ 4096 := by
  rw [fieldValue_eq h]
  split
  · next hnil => simp [hnil, fits, valueOf]
  · exact fits_some _

theorem fits_map_iff {precision : Option (List Char)} :
    fits (precision.map valueOf) = true ↔ ∀ digits ∈ precision, valueOf digits ≤ 4096 := by
  cases precision with
  | none => simp [fits]
  | some digits => simpa using fits_some (valueOf digits)

/-! ## Spellings -/

/-- The parts of a written conversion. -/
@[ext]
structure Spelling where
  flags : List Char
  width : List Char
  /-- What stands behind the point, if there is one. -/
  precision : Option (List Char)
  kind : Kind

namespace Spelling

/-- The characters of a written conversion, behind its percent sign. -/
def text (w : Spelling) : List Char :=
  w.flags ++ (w.width ++ (w.precision.elim [] ('.' :: ·) ++ [w.kind.letter]))

/-- The conversion that is asked for. -/
def spec (w : Spelling) : Spec where
  left := w.flags.contains '-'
  zero := w.flags.contains '0'
  plus := w.flags.contains '+'
  space := w.flags.contains ' '
  group := w.flags.contains ','
  width := if w.width = [] then none else some (valueOf w.width)
  precision := w.precision.map valueOf
  kind := w.kind

/-- The parts are flags, digits and fields that are not too large. -/
structure Valid (w : Spelling) : Prop where
  flags : ∀ c ∈ w.flags, c ∈ ['-', '0', '+', ',', ' ']
  width : ∀ c ∈ w.width, c.isDigit = true
  /-- Zeros in front of a width are flags. -/
  leading : w.width.head? ≠ some '0'
  precision : ∀ digits ∈ w.precision, ∀ c ∈ digits, c.isDigit = true
  widthFits : valueOf w.width ≤ 4096
  precisionFits : ∀ digits ∈ w.precision, valueOf digits ≤ 4096

end Spelling

theorem isFlag_iff {c : Char} : isFlag c = true ↔ c ∈ ['-', '0', '+', ',', ' '] := by
  simp only [isFlag, Bool.or_eq_true, decide_eq_true_iff, List.mem_cons, List.not_mem_nil, or_false]
  grind

/-- A digit that is not zero is no flag. -/
theorem isFlag_of_isDigit {c : Char} (h : c.isDigit = true) (h0 : c ≠ '0') : isFlag c = false := by
  rw [Bool.eq_false_iff]
  intro hflag
  simp only [isFlag_iff, List.mem_cons, List.not_mem_nil, or_false] at hflag
  rcases hflag with rfl | rfl | rfl | rfl | rfl
  · exact absurd h (by decide)
  · exact h0 rfl
  all_goals exact absurd h (by decide)

/-! ## Reading -/

namespace Spelling

variable {w : Spelling}

/-- What stands behind the flags starts with a digit, a point or a letter. -/
theorem Valid.head_fields (hw : w.Valid) (rest : List Char) :
    ∀ c ∈ (w.width ++ (w.precision.elim [] ('.' :: ·) ++ w.kind.letter :: rest)).head?,
      isFlag c = false := by
  intro c hc
  cases hwidth : w.width with
  | cons d _ =>
    obtain rfl : d = c := by simpa [hwidth] using hc
    refine isFlag_of_isDigit (hw.width d (by simp [hwidth])) ?_
    rintro rfl
    exact hw.leading (by simp [hwidth])
  | nil =>
    cases hprecision : w.precision with
    | some digits =>
      obtain rfl : '.' = c := by simpa [hwidth, hprecision] using hc
      decide
    | none =>
      obtain rfl : w.kind.letter = c := by simpa [hwidth, hprecision] using hc
      exact w.kind.letter_ends.1

/-- What stands behind a width starts with a point or a letter. -/
theorem head_precision (w : Spelling) (rest : List Char) :
    ∀ c ∈ (w.precision.elim [] ('.' :: ·) ++ w.kind.letter :: rest).head?,
      c.isDigit = false := by
  intro c hc
  cases hprecision : w.precision with
  | some digits =>
    obtain rfl : '.' = c := by simpa [hprecision] using hc
    decide
  | none =>
    obtain rfl : w.kind.letter = c := by simpa [hprecision] using hc
    exact w.kind.letter_ends.2.1

theorem Valid.readPrecision (hw : w.Valid) (rest : List Char) :
    readPrecision (w.precision.elim [] ('.' :: ·) ++ w.kind.letter :: rest) =
      (w.precision.map valueOf, w.kind.letter :: rest) := by
  obtain ⟨-, hdigit, hpoint⟩ := w.kind.letter_ends
  cases hprecision : w.precision with
  | none =>
    simp only [Option.elim_none, List.nil_append, Option.map_none]
    unfold Conversion.readPrecision
    split
    · next r heq => exact absurd (List.cons.inj heq).1 hpoint
    · rfl
  | some digits =>
    have hdigits := hw.precision digits hprecision
    obtain ⟨htake, hdrop⟩ := Text.takeWhile_append_of_head hdigits
      (b := w.kind.letter :: rest) (by simpa using hdigit)
    simp only [Option.elim_some, List.cons_append, Conversion.readPrecision, htake, hdrop,
      fieldValue_eq hdigits, Option.map_some]
    cases digits <;> rfl

/-- The flags are the longest start of a conversion that is made of flags. -/
theorem Valid.cut_flags (hw : w.Valid) (rest : List Char) :
    (w.text ++ rest).takeWhile isFlag = w.flags ∧
      (w.text ++ rest).dropWhile isFlag =
        w.width ++ (w.precision.elim [] ('.' :: ·) ++ w.kind.letter :: rest) := by
  have htext : w.text ++ rest =
      w.flags ++ (w.width ++ (w.precision.elim [] ('.' :: ·) ++ w.kind.letter :: rest)) := by
    simp [text]
  rw [htext]
  exact Text.takeWhile_append_of_head (fun c hc => isFlag_iff.mpr (hw.flags c hc))
    (hw.head_fields rest)

/-- A valid conversion is read as what it asks for, whatever follows it. -/
theorem Valid.read? (hw : w.Valid) (rest : List Char) :
    Spec.read? (w.text ++ rest) = some (w.spec, rest) := by
  obtain ⟨hflags, hfields⟩ := hw.cut_flags rest
  obtain ⟨hwidth, hafter⟩ := Text.takeWhile_append_of_head hw.width (w.head_precision rest)
  have hfits : fits (fieldValue w.width) = true := (fits_iff hw.width).mpr hw.widthFits
  have hprecisionFits : fits (w.precision.map valueOf) = true :=
    fits_map_iff.mpr hw.precisionFits
  simp only [Spec.read?, hflags, hfields, hwidth, hafter, hw.readPrecision, hfits, hprecisionFits,
    Bool.and_self, if_true, Kind.ofLetter?_eq_some.mpr rfl, Option.map_some]
  rw [fieldValue_eq hw.width]
  rfl

end Spelling

theorem eq_of_readPrecision (s : List Char) :
    ∃ precision : Option (List Char),
      (∀ digits ∈ precision, ∀ c ∈ digits, c.isDigit = true) ∧
        (readPrecision s).1 = precision.map valueOf ∧
        s = precision.elim [] ('.' :: ·) ++ (readPrecision s).2 := by
  unfold readPrecision
  split
  · next r =>
    have hdigits : ∀ c ∈ r.takeWhile Char.isDigit, c.isDigit = true := fun _ =>
      Text.of_mem_takeWhile
    refine ⟨some (r.takeWhile Char.isDigit), by simpa using hdigits, ?_, by simp⟩
    rw [fieldValue_eq hdigits]
    cases r.takeWhile Char.isDigit <;> rfl
  · exact ⟨none, by simp, rfl, rfl⟩

/-- **What is read as a conversion**: a text that starts with a valid one, and only such a text. -/
theorem Spec.read?_eq_some {s rest : List Char} {spec : Spec} :
    Spec.read? s = some (spec, rest) ↔
      ∃ w : Spelling, w.Valid ∧ w.spec = spec ∧ s = w.text ++ rest := by
  constructor
  · intro h
    obtain ⟨precision, hprecision, hvalue, hpoint⟩ :=
      eq_of_readPrecision ((s.dropWhile isFlag).dropWhile Char.isDigit)
    have hwidth : ∀ c ∈ (s.dropWhile isFlag).takeWhile Char.isDigit, c.isDigit = true :=
      fun _ => Text.of_mem_takeWhile
    simp only [Spec.read?, Bool.and_eq_true] at h
    split at h
    · next hfits =>
      rw [fits_iff hwidth, hvalue, fits_map_iff] at hfits
      split at h
      · cases h
      · next letter rest' hletter =>
        obtain ⟨kind, hkind, hspec⟩ := Option.map_eq_some_iff.mp h
        rw [Kind.ofLetter?_eq_some] at hkind
        obtain ⟨rfl, rfl⟩ := Prod.mk.inj hspec
        refine ⟨⟨s.takeWhile isFlag, (s.dropWhile isFlag).takeWhile Char.isDigit, precision, kind⟩,
          ⟨?_, hwidth, ?_, hprecision, hfits.1, hfits.2⟩, ?_, ?_⟩
        · exact fun c hc => isFlag_iff.mp (Text.of_mem_takeWhile hc)
        · -- a zero behind the flags would be one of them
          intro hzero
          have hhead : '0' ∈ (s.dropWhile isFlag).head? := by
            cases hdrop : s.dropWhile isFlag with
            | nil => simp [hdrop] at hzero
            | cons d more =>
              rw [hdrop, List.takeWhile_cons] at hzero
              split at hzero
              · simpa using hzero
              · cases hzero
          exact absurd (Text.of_mem_head?_dropWhile hhead) (by decide)
        · simp [Spelling.spec, fieldValue_eq hwidth, hvalue]
        · rw [hletter] at hpoint
          subst hkind
          simp only [Spelling.text, List.append_assoc, List.singleton_append, ← hpoint,
            List.takeWhile_append_dropWhile]
    · cases h
  · rintro ⟨w, hw, rfl, rfl⟩
    exact hw.read? rest

/-- What stands behind a width tells the precision and the letter. -/
theorem Spelling.Valid.unique_precision {w w' : Spelling} (hw : w.Valid) (hw' : w'.Valid)
    {rest rest' : List Char}
    (h : w.precision.elim [] ('.' :: ·) ++ w.kind.letter :: rest =
      w'.precision.elim [] ('.' :: ·) ++ w'.kind.letter :: rest') :
    w.precision = w'.precision ∧ w.kind = w'.kind ∧ rest = rest' := by
  have hletters : w.kind.letter = w'.kind.letter → w.kind = w'.kind := fun hletter =>
    Option.some.inj ((Kind.ofLetter?_eq_some.mpr hletter).symm.trans
      (Kind.ofLetter?_eq_some.mpr rfl)) |>.symm
  cases hprecision : w.precision <;> cases hprecision' : w'.precision <;>
    rw [hprecision, hprecision'] at h
  · obtain ⟨hletter, hrest⟩ := List.cons.inj h
    exact ⟨rfl, hletters hletter, hrest⟩
  · exact absurd (List.cons.inj h).1 w.kind.letter_ends.2.2
  · exact absurd (List.cons.inj h).1.symm w'.kind.letter_ends.2.2
  · next digits digits' =>
    have htail : digits ++ w.kind.letter :: rest = digits' ++ w'.kind.letter :: rest' :=
      (List.cons.inj h).2
    obtain ⟨htake, hdrop⟩ := Text.takeWhile_append_of_head (hw.precision _ hprecision)
      (b := w.kind.letter :: rest) (by simpa using w.kind.letter_ends.2.1)
    obtain ⟨htake', hdrop'⟩ := Text.takeWhile_append_of_head (hw'.precision _ hprecision')
      (b := w'.kind.letter :: rest') (by simpa using w'.kind.letter_ends.2.1)
    rw [htail, htake'] at htake
    rw [htail, hdrop'] at hdrop
    obtain ⟨hletter, hrest⟩ := List.cons.inj hdrop.symm
    exact ⟨congrArg some htake.symm, hletters hletter, hrest⟩

/-- A text starts with at most one conversion, and its parts are determined. -/
theorem Spelling.Valid.unique {w w' : Spelling} (hw : w.Valid) (hw' : w'.Valid)
    {rest rest' : List Char} (h : w.text ++ rest = w'.text ++ rest') : w = w' ∧ rest = rest' := by
  obtain ⟨hflags, hfields⟩ := hw.cut_flags rest
  obtain ⟨hflags', hfields'⟩ := hw'.cut_flags rest'
  rw [h, hflags'] at hflags
  rw [h, hfields'] at hfields
  obtain ⟨hwidth, hpoint⟩ := Text.takeWhile_append_of_head hw.width (w.head_precision rest)
  obtain ⟨hwidth', hpoint'⟩ := Text.takeWhile_append_of_head hw'.width (w'.head_precision rest')
  rw [← hfields, hwidth'] at hwidth
  rw [← hfields, hpoint'] at hpoint
  obtain ⟨hprecision, hkind, hrest⟩ := hw.unique_precision hw' hpoint.symm
  exact ⟨Spelling.ext hflags.symm hwidth.symm hprecision hkind, hrest⟩

end Stencil.Conversion
