import Stencil.Number.Binary64
import Stencil.Number.Digits

/-!
# The fewest digits that identify a binary64 number

The shortest text of a number has the fewest digits among all decimals that read back to it, and is
the nearest to it among those.  The search is over exact quotients: the reals that round to
`significand * 2 ^ exponent` form an interval, and a grid of decimals with `n` digits meets that
interval exactly when one of the number's two neighbours on the grid lies in it.

* `Binary64.readsBack`: a decimal lies in the rounding interval;
* `Binary64.shortest`: the digits and the decimal exponent of the shortest text;
* `Binary64.plain`: its layout without an exponent part, and without a point for a whole number;
* `Binary64.diagnostic`: its layout with a point always, and with an exponent part for very large
  and very small numbers.
-/

namespace Stencil.Number.Binary64

/-- A decimal `digits * 10 ^ scale`. -/
structure Decimal where
  digits : Nat
  scale : Int
  deriving DecidableEq

/-- The interval of reals that round to `x` is given in quarters of the unit `2 ^ exponent`: from
`4 * significand - 2` (or `- 1` right above a power of two, where the gap below is half as wide) to
`4 * significand + 2`.  Its ends belong to it exactly when the significand is even. -/
def readsBack (x : Binary64) (d : Decimal) : Bool :=
  let narrow := x.fraction = 0 ∧ 1 < x.exponentField
  let low := 4 * x.significand - (if narrow then 1 else 2)
  let high := 4 * x.significand + 2
  let e := x.exponent - 2
  let value := d.digits * Nat.pow 10 d.scale.toNat * Nat.pow 2 (-e).toNat
  let unit := Nat.pow 2 e.toNat * Nat.pow 10 (-d.scale).toNat
  if x.significand % 2 = 0 then low * unit ≤ value ∧ value ≤ high * unit
  else low * unit < value ∧ value < high * unit

/-- The position of the leading digit of a positive quotient: the least `k` with
`num / den < 10 ^ k`. -/
def magnitudeOf (num den : Nat) : Int :=
  if den ≤ num then (decimal (num / den)).length
  else 1 - ((decimal (den / num)).length : Int)

/-- The decimal on the grid of `n` digits that reads back to `x`: of the two neighbours the nearer
one, and of two equally near the upper one. -/
def onGrid? (x : Binary64) (n : Nat) : Option Decimal :=
  let scale := magnitudeOf x.numerator x.denominator - n
  let num := x.numerator * Nat.pow 10 (-scale).toNat
  let den := x.denominator * Nat.pow 10 scale.toNat
  let below : Decimal := ⟨num / den, scale⟩
  let above : Decimal := ⟨num / den + 1, scale⟩
  match x.readsBack below, x.readsBack above with
  | true, true => some (if 2 * (num % den) < den then below else above)
  | true, false => some below
  | false, true => some above
  | false, false => none

/-- The exact value of a finite number as a decimal. -/
def exactDecimal (x : Binary64) : Decimal :=
  let places := (-x.exponent).toNat
  ⟨x.numerator * Nat.pow 5 places, -(places : Int)⟩

/-- Moves the trailing zeros of the digits into the scale, at most `fuel` of them. -/
def Decimal.stripped : Nat → Decimal → Decimal
  | 0, d => d
  | fuel + 1, d =>
    if d.digits ≠ 0 ∧ d.digits % 10 = 0 then stripped fuel ⟨d.digits / 10, d.scale + 1⟩ else d

/-- The shortest decimal of a positive finite number: the first grid with a hit, from one digit up
to seventeen. -/
def shortest (x : Binary64) : Decimal :=
  let found := (List.range 17).findSome? (fun n => x.onGrid? (n + 1))
  let d := found.getD x.exactDecimal
  d.stripped (decimal d.digits).length

/-- The positional text of a decimal, without a point when it is a whole number. -/
def Decimal.positional (d : Decimal) : List Char :=
  if 0 ≤ d.scale then decimal (d.digits * Nat.pow 10 d.scale.toNat)
  else withPoint (-d.scale).toNat d.digits

/-- The text of a magnitude with the fewest digits, never with an exponent part. -/
def plainMagnitude (x : Binary64) : List Char :=
  if x.isNaN then "NaN".toList
  else if !x.isFinite then "inf".toList
  else if x.significand = 0 then ['0']
  else x.shortest.positional

/-- The text with the fewest digits, never with an exponent part and without a point for a whole
number.  A negative zero keeps its sign. -/
def plain (x : Binary64) : List Char :=
  if x.negative && !x.isNaN then '-' :: x.plainMagnitude else x.plainMagnitude

/-- The diagnostic text of a magnitude: from `10 ^ 16` up and below `10 ^ -4` with an exponent
part, otherwise positional with a point. -/
def diagnosticMagnitude (x : Binary64) : List Char :=
  if x.isNaN || !x.isFinite then x.plainMagnitude
  else if x.significand = 0 then "0.0".toList
  else
    let d := x.shortest
    let digits := decimal d.digits
    let lead := d.scale + digits.length - 1
    if -5 < lead ∧ lead < 16 then
      if 0 ≤ d.scale then d.positional ++ ".0".toList else d.positional
    else
      (match digits with
        | [] => []
        | [c] => [c]
        | c :: rest => c :: '.' :: rest) ++ 'e' :: signedDecimal lead

/-- The text of a number inside diagnostic output. -/
def diagnostic (x : Binary64) : List Char :=
  if x.negative && !x.isNaN then '-' :: x.diagnosticMagnitude else x.diagnosticMagnitude

end Stencil.Number.Binary64
