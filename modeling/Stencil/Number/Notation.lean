import Stencil.Number.Digits

/-!
# Notations of numbers

Reads the digits of whole numbers in any base up to sixteen, and decimal notations with sign, point
and exponent: `12`, `-0.5`, `.5`, `1.`, `+1e-7`.

* `natural?`: the number that digits write;
* `decimalNotation?`: sign, digits and power of ten of a decimal notation.
-/

namespace Stencil.Number

/-- The number that digits write in a base; there must be at least one digit. -/
def natural? (base : Nat) (digits : List Char) : Option Nat :=
  if digits.isEmpty then none
  else digits.foldlM (fun n c =>
    (hexValue? c).bind fun d => if d < base then some (n * base + d) else none) 0

/-- A text without the sign in front of it, and whether that is a minus sign. -/
def unsigned : List Char → Bool × List Char
  | '-' :: rest => (true, rest)
  | '+' :: rest => (false, rest)
  | s => (false, s)

/-- The power of ten of an exponent part, which may be missing. -/
def exponentPart? : List Char → Option Int
  | [] => some 0
  | e :: rest =>
    if e = 'e' ∨ e = 'E' then
      let (negative, digits) := unsigned rest
      (natural? 10 digits).map fun n => if negative then -n else n
    else none

/-- A number in decimal notation: its digits, read as a whole number, times a power of ten. -/
structure DecimalNotation where
  negative : Bool
  digits : Nat
  scale : Int
  deriving DecidableEq

/-- Reads a decimal notation.  There must be a digit in front of the point or behind it. -/
def decimalNotation? (s : List Char) : Option DecimalNotation := do
  let (negative, s) := unsigned s
  let whole := s.takeWhile Char.isDigit
  let rest := s.dropWhile Char.isDigit
  let (fraction, rest) := match rest with
    | '.' :: rest => (rest.takeWhile Char.isDigit, rest.dropWhile Char.isDigit)
    | _ => ([], rest)
  let digits ← natural? 10 (whole ++ fraction)
  let exponent ← exponentPart? rest
  pure ⟨negative, digits, exponent - fraction.length⟩

end Stencil.Number
