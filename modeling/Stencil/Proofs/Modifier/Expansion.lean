import Stencil.Proofs.Modifier.Spelling

/-!
# What a pattern comes to

A pattern is cut into pieces from left to right: a conversion where one starts, and a character that
stands for itself everywhere else.  In particular a percent sign that starts no conversion stands
for itself, and the next piece starts right behind it.  The text of a pattern is that of its pieces.

- `Piece`, `Pieces`: the pieces of a pattern; `Pieces.unique`: there is one way to cut a pattern;
- `Spec.body_numeric`: the results that are numbers;
- `Padded`: a text that has been filled up to the width of its conversion;
- `expand_substitutes`: **the text of a pattern is that of its pieces**, and every conversion but a
  line feed is filled up to its width.
-/

namespace Stencil.Conversion

open Number

/-! ## Pieces -/

/-- A character that stands for itself, or a conversion. -/
inductive Piece where
  | literal (x : Char)
  | conversion (w : Spelling)

namespace Piece

/-- What a piece is written as. -/
def source : Piece → List Char
  | literal x => [x]
  | conversion w => '%' :: w.text

/-- What a piece comes to. -/
def output (value : Scalar) (c : Conventions) : Piece → List Char
  | literal x => [x]
  | conversion w => w.spec.render value c

end Piece

/-- A conversion starts here. -/
def StartsConversion (s : List Char) : Prop :=
  ∃ w : Spelling, w.Valid ∧ ∃ rest, s = '%' :: (w.text ++ rest)

/-- The pieces of a pattern, from left to right. -/
inductive Pieces : List Char → List Piece → Prop where
  | nil : Pieces [] []
  | conversion {w : Spelling} {rest : List Char} {pieces : List Piece} (hw : w.Valid)
      (h : Pieces rest pieces) : Pieces ('%' :: (w.text ++ rest)) (.conversion w :: pieces)
  | literal {x : Char} {rest : List Char} {pieces : List Piece}
      (hx : ¬ StartsConversion (x :: rest)) (h : Pieces rest pieces) :
      Pieces (x :: rest) (.literal x :: pieces)

variable {s : List Char} {pieces : List Piece}

/-- Nothing of a pattern is left out. -/
theorem Pieces.flatMap_source (h : Pieces s pieces) : pieces.flatMap Piece.source = s := by
  induction h with
  | nil => rfl
  | conversion _ _ ih => simp [Piece.source, ih]
  | literal _ _ ih => simp [Piece.source, ih]

/-- There is one way to cut a pattern. -/
theorem Pieces.unique {others : List Piece} (h : Pieces s pieces) (hothers : Pieces s others) :
    others = pieces := by
  induction h generalizing others with
  | nil =>
    cases hothers
    rfl
  | @conversion w rest pieces hw _ ih =>
    generalize hs : '%' :: (w.text ++ rest) = s at hothers
    cases hothers with
    | nil => cases hs
    | conversion hw' h' =>
      obtain ⟨rfl, rfl⟩ := hw.unique hw' (List.cons.inj hs).2
      rw [ih h']
    | literal hx _ => exact absurd ⟨w, hw, rest, hs.symm⟩ hx
  | @literal x rest pieces hx _ ih =>
    generalize hs : x :: rest = s at hothers
    cases hothers with
    | nil => cases hs
    | conversion hw' _ => exact absurd ⟨_, hw', _, hs⟩ hx
    | literal _ h' =>
      obtain ⟨rfl, rfl⟩ := List.cons.inj hs
      rw [ih h']

/-- A conversion starts at a percent sign behind which one is read. -/
theorem startsConversion_iff {x : Char} :
    StartsConversion (x :: s) ↔ x = '%' ∧ (Spec.read? s).isSome := by
  simp only [StartsConversion, Option.isSome_iff_exists, Prod.exists, Spec.read?_eq_some]
  constructor
  · rintro ⟨w, hw, rest, h⟩
    obtain ⟨rfl, rfl⟩ := List.cons.inj h
    exact ⟨rfl, w.spec, rest, w, hw, rfl, rfl⟩
  · rintro ⟨rfl, _, rest, w, hw, -, rfl⟩
    exact ⟨w, hw, rest, rfl⟩

/-- Every pattern is cut into pieces, and with enough fuel its text is theirs. -/
theorem exists_pieces (value : Scalar) (c : Conventions) (fuel : Nat) (s : List Char)
    (h : s.length ≤ fuel) :
    ∃ pieces, Pieces s pieces ∧
      expandFrom value c fuel s = pieces.flatMap (Piece.output value c) := by
  fun_induction expandFrom value c fuel s with
  | case1 s =>
    obtain rfl := List.length_eq_zero_iff.mp (Nat.le_zero.mp h)
    exact ⟨[], .nil, rfl⟩
  | case2 => exact ⟨[], .nil, rfl⟩
  | case3 fuel r spec rest hread ih =>
    -- what is left behind a conversion is shorter, so that the fuel goes on to be enough
    obtain ⟨w, hw, rfl, rfl⟩ := Spec.read?_eq_some.mp hread
    obtain ⟨pieces, hpieces, htext⟩ := ih (by simp at h; omega)
    exact ⟨_, .conversion hw hpieces, by simp [Piece.output, htext]⟩
  | case4 fuel r hread ih =>
    -- a percent sign behind which nothing is read
    obtain ⟨pieces, hpieces, htext⟩ := ih (by simpa using h)
    refine ⟨_, .literal ?_ hpieces, by simp [Piece.output, htext]⟩
    simp [startsConversion_iff, hread]
  | case5 fuel x r hx ih =>
    obtain ⟨pieces, hpieces, htext⟩ := ih (by simpa using h)
    refine ⟨_, .literal ?_ hpieces, by simp [Piece.output, htext]⟩
    rw [startsConversion_iff]
    exact fun hstarts => hx hstarts.1

/-! ## Padding -/

/-- Whether a conversion writes a number: a whole one, or one that is finite. -/
def Kind.writesNumber (value : Scalar) : Kind → Bool
  | .integer | .hex _ => (wholeNumber? value).isSome
  | .places | .exponent => (binary64? value).any Binary64.isFinite
  | .text | .capitals | .truth | .percent | .lineFeed => false

/-- A result has one of three signs, or none; only numbers have one. -/
structure Body.Signed (b : Body) : Prop where
  sign_mem : b.sign ∈ [[], ['-'], ['+'], [' ']]
  sign_eq_nil : b.numeric = false → b.sign = []

theorem Body.signed_ofText (s : List Char) : (Body.ofText s).Signed := by
  constructor <;> simp [Body.ofText]

theorem Body.signed_ofNumber (spec : Spec) (negative : Bool) (digits : List Char) :
    (Body.ofNumber spec negative digits).Signed := by
  refine ⟨?_, nofun⟩
  simp only [Body.ofNumber]
  split
  · simp
  split
  · simp
  split
  · simp
  · simp

/-- The results that are numbers are marked as such. -/
theorem Spec.body_numeric (spec : Spec) (value : Scalar) (c : Conventions) :
    (spec.body value c).numeric = spec.kind.writesNumber value ∧ (spec.body value c).Signed := by
  cases hkind : spec.kind with
  | text | capitals | truth | percent | lineFeed =>
    simp only [Spec.body, hkind, Kind.writesNumber]
    exact ⟨rfl, Body.signed_ofText _⟩
  | integer | hex =>
    simp only [Spec.body, hkind, Kind.writesNumber]
    cases wholeNumber? value with
    | none => exact ⟨rfl, Body.signed_ofText _⟩
    | some n => exact ⟨rfl, Body.signed_ofNumber ..⟩
  | places | exponent =>
    simp only [Spec.body, hkind, Kind.writesNumber]
    cases binary64? value with
    | none => exact ⟨rfl, Body.signed_ofText _⟩
    | some x =>
      cases hfinite : x.isFinite with
      | false =>
        simp only [hfinite, Option.any_some]
        exact ⟨rfl, Body.signed_ofText _⟩
      | true =>
        simp only [hfinite, Option.any_some]
        exact ⟨rfl, Body.signed_ofNumber ..⟩

/-- `text` is the sign and the digits of a result, filled up to the width of the conversion: with
spaces behind them, with zeros between them, or with spaces in front of them. -/
structure Padded (w : Spelling) (value : Scalar) (b : Body) (text : List Char) : Prop where
  length_eq : text.length = max (valueOf w.width) (b.sign.length + b.digits.length)
  signed : b.Signed
  filled : ∃ fill, text =
    if '-' ∈ w.flags then b.sign ++ b.digits ++ List.replicate fill ' '
    else if '0' ∈ w.flags ∧ w.kind.writesNumber value then
      b.sign ++ List.replicate fill '0' ++ b.digits
    else List.replicate fill ' ' ++ b.sign ++ b.digits

theorem Spec.length_pad (spec : Spec) (b : Body) :
    (spec.pad b).length = max (spec.width.getD 0) (b.sign.length + b.digits.length) := by
  simp only [Spec.pad]
  split
  · simp
    omega
  split
  · simp
    omega
  · simp
    omega

/-- Every conversion but a line feed is filled up to its width. -/
theorem Spelling.padded (w : Spelling) (value : Scalar) (c : Conventions)
    (hkind : w.kind ≠ .lineFeed) :
    Padded w value (w.spec.body value c) (w.spec.render value c) := by
  have hrender : w.spec.render value c = w.spec.pad (w.spec.body value c) := by
    unfold Spec.render
    split
    · next h => exact absurd h hkind
    · rfl
  have hwidth : w.spec.width.getD 0 = valueOf w.width := by
    unfold Spelling.spec
    dsimp only
    split
    · next h => rw [h]; rfl
    · rfl
  obtain ⟨hnumeric, hsigned⟩ := w.spec.body_numeric value c
  rw [hrender]
  constructor
  · rw [Spec.length_pad, hwidth]
  · exact hsigned
  · refine ⟨w.spec.width.getD 0 -
      ((w.spec.body value c).sign.length + (w.spec.body value c).digits.length), ?_⟩
    simp only [Spec.pad, hnumeric, Bool.and_eq_true]
    simp [Spelling.spec]

/-! ## Patterns -/

/-- **The text of a pattern is that of its pieces**, from left to right: the characters that stand
for themselves, and one text for each conversion.  A line feed is written as it is, and every other
conversion is filled up to its width. -/
theorem expand_substitutes (pattern : String) (value : Scalar) (c : Conventions) :
    ∃ pieces, Pieces pattern.toList pieces ∧ pieces.flatMap Piece.source = pattern.toList ∧
      (∀ others, Pieces pattern.toList others → others = pieces) ∧
      (expand pattern value c).toList = pieces.flatMap (Piece.output value c) ∧
      ∀ w, Piece.conversion w ∈ pieces →
        if w.kind = .lineFeed then w.spec.render value c = ['\n']
        else Padded w value (w.spec.body value c) (w.spec.render value c) := by
  obtain ⟨pieces, hpieces, htext⟩ :=
    exists_pieces value c pattern.length pattern.toList (Nat.le_of_eq pattern.length_toList)
  refine ⟨pieces, hpieces, hpieces.flatMap_source, fun others => hpieces.unique, ?_, fun w _ => ?_⟩
  · rw [expand, String.toList_ofList, htext]
  · split
    · next hkind =>
      unfold Spec.render
      rw [show w.spec.kind = .lineFeed from hkind]
    · next hkind => exact w.padded value c hkind

example : expand "[%5d|%-5s|%+05d|%q%%" (.number (.signed 42)) americanEnglish =
    "[   42|42   |+0042|%q%" := by
  decide +kernel

end Stencil.Conversion
