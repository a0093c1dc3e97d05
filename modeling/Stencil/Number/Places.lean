import Stencil.Number.Shortest

/-!
# Binary64 numbers with a set number of places

Both layouts round the exact binary value once, a tie going to the even digit:

* `Binary64.fixed`: a set number of digits after the point;
* `Binary64.scientific`: one digit before the point, a set number after it, and a decimal exponent.
-/

namespace Stencil.Number.Binary64

/-- The magnitude of a finite number with `places` digits after the point. -/
def fixedMagnitude (x : Binary64) (places : Nat) : List Char :=
  withPoint places (halfEven (x.numerator * Nat.pow 10 places) x.denominator)

/-- The number with `places` digits after the point, with its sign; a negative number keeps its
sign also when every digit is zero. -/
def fixed (x : Binary64) (places : Nat) : List Char :=
  if !x.isFinite then x.plain
  else if x.negative then '-' :: x.fixedMagnitude places
  else x.fixedMagnitude places

/-- The digits of a finite magnitude in scientific form, `places + 1` of them, and the exponent of
the first one.  Rounding up to a power of ten moves the exponent. -/
def scientific (x : Binary64) (places : Nat) : Nat × Int :=
  if x.significand = 0 then (0, 0)
  else
    let lead := magnitudeOf x.numerator x.denominator - 1
    let scale := lead - places
    let num := x.numerator * Nat.pow 10 (-scale).toNat
    let den := x.denominator * Nat.pow 10 scale.toNat
    let digits := halfEven num den
    if digits = Nat.pow 10 (places + 1) then (digits / 10, lead + 1) else (digits, lead)

end Stencil.Number.Binary64
