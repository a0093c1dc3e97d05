/-!
# Digits of natural numbers

Texts of whole numbers, over lists of characters:

* `decimal n` and `hexadecimal n`: the digits of `n`, without leading zeros, `0` for zero;
* `padded width n`: the decimal digits of `n`, filled up with zeros on the left;
* `withPoint places n`: the decimal digits of `n` read as a multiple of `10 ^ -places`.
-/

namespace Stencil.Number

/-- The decimal digits of `n`. -/
def decimal (n : Nat) : List Char := Nat.toDigits 10 n

/-- The hexadecimal digits of `n`, with small letters. -/
def hexadecimal (n : Nat) : List Char := Nat.toDigits 16 n

/-- The decimal digits of an integer, with a minus sign in front of a negative one. -/
def signedDecimal (n : Int) : List Char :=
  if n < 0 then '-' :: decimal n.natAbs else decimal n.natAbs

/-- Zeros in front of `digits`, as many as it takes to reach `width`. -/
def zeroFilled (width : Nat) (digits : List Char) : List Char :=
  List.replicate (width - digits.length) '0' ++ digits

/-- The decimal digits of `n`, at least `width` of them. -/
def padded (width n : Nat) : List Char := zeroFilled width (decimal n)

/-- The text of `n * 10 ^ -places`: at least one digit before the point and exactly `places` after
it; no point when there are no places. -/
def withPoint (places n : Nat) : List Char :=
  let digits := padded (places + 1) n
  if places = 0 then digits
  else digits.take (digits.length - places) ++ '.' :: digits.drop (digits.length - places)

/-- The value of a decimal digit. -/
def digitValue? (c : Char) : Option Nat :=
  if '0' ≤ c ∧ c ≤ '9' then some (c.toNat - 48) else none

/-- The value of a hexadecimal digit, with letters of either case. -/
def hexValue? (c : Char) : Option Nat :=
  if '0' ≤ c ∧ c ≤ '9' then some (c.toNat - 48)
  else if 'a' ≤ c ∧ c ≤ 'f' then some (c.toNat - 87)
  else if 'A' ≤ c ∧ c ≤ 'F' then some (c.toNat - 55)
  else none

theorem length_zeroFilled (width : Nat) (digits : List Char) :
    (zeroFilled width digits).length = max width digits.length := by
  simp [zeroFilled]; omega

end Stencil.Number
