/-!
# Binary64 numbers as exact quotients

A binary64 number is kept as its 64 bits, and everything else about it is exact arithmetic on
naturals.  A finite number denotes `significand * 2 ^ exponent`, with a sign; `numerator` and
`denominator` are that magnitude as a quotient.  Each operation computes its exact result as a
quotient and rounds it once, to nearest with ties to the even significand:

* `halfEven`: the whole number nearest to a quotient, which number texts with a set number of places
  are made from, too;
* `ofRatio`: the number nearest to a quotient, infinite beyond the range;
* `ofNat`, `ofInt`, `ofScientific`: the nearest to an integer, and to a decimal;
* `scaled`: the nearest to a number times a fraction;
* `truncated`: the integer part, towards zero; `clamped` keeps it inside bounds.
-/

namespace Stencil.Number

/-- The whole number nearest to `num / den`, a tie going to the even neighbour.  A denominator of
zero gives zero. -/
def halfEven (num den : Nat) : Nat :=
  let quotient := num / den
  let twice := 2 * (num % den)
  if twice < den then quotient
  else if den < twice then quotient + 1
  else quotient + quotient % 2

/-- A binary64 number, as its sign bit, its eleven exponent bits and its fifty-two fraction bits. -/
structure Binary64 where
  bits : UInt64
  deriving DecidableEq, Inhabited

namespace Binary64

/-! ## Parts -/

/-- The sign bit is set.  Zero has a sign too. -/
def negative (x : Binary64) : Bool := x.bits.toNat / Nat.pow 2 63 = 1

/-- The biased exponent. -/
def exponentField (x : Binary64) : Nat := x.bits.toNat / Nat.pow 2 52 % Nat.pow 2 11

/-- The fraction bits. -/
def fraction (x : Binary64) : Nat := x.bits.toNat % Nat.pow 2 52

/-- Neither infinite nor without a value. -/
def isFinite (x : Binary64) : Bool := x.exponentField ≠ 2047

/-- Stands for no number at all. -/
def isNaN (x : Binary64) : Bool := x.exponentField = 2047 ∧ x.fraction ≠ 0

/-- The magnitude of a finite number is `significand * 2 ^ exponent`. -/
def significand (x : Binary64) : Nat :=
  if x.exponentField = 0 then x.fraction else Nat.pow 2 52 + x.fraction

/-- The power of two that goes with `significand`. -/
def exponent (x : Binary64) : Int := (max x.exponentField 1 : Int) - 1075

/-- Together with `denominator`, the exact magnitude of a finite number. -/
def numerator (x : Binary64) : Nat := x.significand * Nat.pow 2 x.exponent.toNat

/-- Together with `numerator`, the exact magnitude of a finite number. -/
def denominator (x : Binary64) : Nat := Nat.pow 2 (-x.exponent).toNat

/-- A finite number without a fraction. -/
def isWhole (x : Binary64) : Bool := x.isFinite && x.numerator % x.denominator == 0

/-- A positive infinity, or the negative one. -/
def infinity (negative : Bool) : Binary64 :=
  ⟨if negative then 0xFFF0000000000000 else 0x7FF0000000000000⟩

/-- The value that is no number. -/
def nan : Binary64 := ⟨0x7FF8000000000000⟩

/-- The same magnitude without its sign. -/
def abs (x : Binary64) : Binary64 := ⟨x.bits &&& 0x7FFFFFFFFFFFFFFF⟩

/-- Less than zero; a negative zero is not. -/
def belowZero (x : Binary64) : Bool :=
  x.negative && !x.isNaN && !(x.isFinite && x.significand == 0)

/-! ## Rounding to a binary format -/

/-- The largest `k` with `2 ^ k ≤ num / den`, for positive `num` and `den`. -/
def floorLog2 (num den : Nat) : Int :=
  let guess : Int := (num.log2 : Int) - den.log2
  if num * Nat.pow 2 (-guess).toNat < den * Nat.pow 2 guess.toNat then guess - 1 else guess

/-- The significand and exponent nearest to `num / den` in a format with `precision` significant
bits and no exponent under `least`; a tie goes to the even significand.  The significand may be
`2 ^ precision`, when rounding carries. -/
def nearest (precision : Nat) (least : Int) (num den : Nat) : Nat × Int :=
  let e := max (floorLog2 num den - (precision - 1 : Nat)) least
  (halfEven (num * Nat.pow 2 (-e).toNat) (den * Nat.pow 2 e.toNat), e)

/-- The binary64 number nearest to `num / den` with the given sign.  The bits of a magnitude
`m * 2 ^ e` are `(e + 1074) * 2 ^ 52 + m`: a normal significand carries its leading bit into the
exponent field. -/
def ofRatio (negative : Bool) (num den : Nat) : Binary64 :=
  let sign : Nat := if negative then Nat.pow 2 63 else 0
  if num = 0 ∨ den = 0 then ⟨UInt64.ofNat sign⟩
  else
    let (m, e) := nearest 53 (-1074) num den
    let magnitude := (e + 1074).toNat * Nat.pow 2 52 + m
    if 2047 * Nat.pow 2 52 ≤ magnitude then infinity negative
    else ⟨UInt64.ofNat (sign + magnitude)⟩

/-- The value of the binary32 number nearest to `num / den`; every binary32 number is a binary64
number too. -/
def ofRatioSingle (negative : Bool) (num den : Nat) : Binary64 :=
  if num = 0 ∨ den = 0 then ofRatio negative 0 1
  else
    let (m, e) := nearest 24 (-149) num den
    if Nat.pow 2 128 ≤ m * Nat.pow 2 e.toNat then infinity negative
    else ofRatio negative (m * Nat.pow 2 e.toNat) (Nat.pow 2 (-e).toNat)

/-- The nearest to a natural number. -/
def ofNat (n : Nat) : Binary64 := ofRatio false n 1

/-- The nearest to an integer. -/
def ofInt (n : Int) : Binary64 := ofRatio (n < 0) n.natAbs 1

/-- The quotient of `mantissa * 10 ^ scale`.  Beyond `10 ^ 310` and below `10 ^ -330` every decimal
rounds alike, so the scale is cut there. -/
def decimalRatio (mantissa : Nat) (scale : Int) : Nat × Nat :=
  if mantissa = 0 then (0, 1)
  else
    let lead : Int := (Nat.toDigits 10 mantissa).length + scale
    if 310 < lead then (Nat.pow 10 310, 1)
    else if lead < -330 then (1, Nat.pow 10 330)
    else (mantissa * Nat.pow 10 scale.toNat, Nat.pow 10 (-scale).toNat)

/-- The nearest to `mantissa * 10 ^ scale`. -/
def ofScientific (negative : Bool) (mantissa : Nat) (scale : Int) : Binary64 :=
  let (num, den) := decimalRatio mantissa scale
  ofRatio negative num den

/-- As `ofScientific`, rounded to binary32. -/
def ofScientificSingle (negative : Bool) (mantissa : Nat) (scale : Int) : Binary64 :=
  let (num, den) := decimalRatio mantissa scale
  ofRatioSingle negative num den

/-! ## Operations -/

/-- The number times `num / den`, rounded once.  What is not finite stays as it is. -/
def scaled (x : Binary64) (num den : Nat) : Binary64 :=
  if x.isFinite then ofRatio x.negative (x.numerator * num) (x.denominator * den) else x

/-- The integer part of a finite number, towards zero. -/
def truncated (x : Binary64) : Int :=
  let whole := x.numerator / x.denominator
  if x.negative then -whole else whole

/-- The integer part, moved to the nearer bound when it lies outside `least` and `greatest`; an
infinity goes to its bound, and what is no number gives zero. -/
def clamped (x : Binary64) (least greatest : Int) : Int :=
  if x.isNaN then 0
  else if x.isFinite then max least (min greatest x.truncated)
  else if x.negative then least
  else greatest

end Binary64

end Stencil.Number
