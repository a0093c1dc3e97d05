import Stencil.Value.Scalar
import Stencil.Locale.Conventions
import Stencil.Text.Uppercase

/-!
# Conversion patterns

A conversion pattern is a text with conversions in it.  A conversion is a percent sign, flags from
`- 0 + ,` and the space, a width, a point and a precision, and a letter:

```text
%[flags][width][.precision]letter
```

All conversions of a pattern write the same scalar.  A percent sign that starts no conversion stands
for itself, and reading goes on right behind it.

* `Spec.read?`: the conversion at the start of a text;
* `Spec.body`: the sign and the text of the scalar, before padding;
* `Spec.render`: the padded text;
* `expand`: the text of a pattern.
-/

namespace Stencil.Conversion

open Number

/-- What a conversion writes, by its letter. -/
inductive Kind where
  /-- `s`: the display text. -/
  | text
  /-- `S`: the display text in capitals. -/
  | capitals
  /-- `b`: the truth value; everything that is no truth value is true. -/
  | truth
  /-- `d`: a whole number. -/
  | integer
  /-- `x` and `X`: a whole number in base sixteen. -/
  | hex (capital : Bool)
  /-- `f`: a set number of places. -/
  | places
  /-- `e`: scientific form. -/
  | exponent
  /-- `%`: a percent sign. -/
  | percent
  /-- `n`: a line feed, without any padding. -/
  | lineFeed
  deriving DecidableEq

/-- The conversion of a letter. -/
def Kind.ofLetter? : Char → Option Kind
  | 's' => some .text
  | 'S' => some .capitals
  | 'b' => some .truth
  | 'd' => some .integer
  | 'x' => some (.hex false)
  | 'X' => some (.hex true)
  | 'f' => some .places
  | 'e' => some .exponent
  | '%' => some .percent
  | 'n' => some .lineFeed
  | _ => none

/-- A conversion with its flags and fields. -/
structure Spec where
  left : Bool
  zero : Bool
  plus : Bool
  space : Bool
  group : Bool
  width : Option Nat
  precision : Option Nat
  kind : Kind
  deriving DecidableEq

/-! ## Reading -/

/-- The largest width and the largest precision (`MAX_FIELD`). -/
def largestField : Nat := 4096

/-- The characters that are flags. -/
def isFlag (c : Char) : Bool := c = '-' || c = '0' || c = '+' || c = ' ' || c = ','

/-- The number that a run of decimal digits writes (`digits`); none for no digits. -/
def fieldValue (digits : List Char) : Option Nat :=
  if digits.isEmpty then none
  else some (digits.foldl (fun n c => n * 10 + (digitValue? c).getD 0) 0)

/-- A field that is missing or not too large. -/
def fits (field : Option Nat) : Bool := field.all (fun n => n ≤ largestField)

/-- Reads the precision: none without a point, zero for a point without digits. -/
def readPrecision : List Char → Option Nat × List Char
  | '.' :: r => (some ((fieldValue (r.takeWhile Char.isDigit)).getD 0), r.dropWhile Char.isDigit)
  | s => (none, s)

/-- Reads the conversion behind a percent sign (`parse_spec`): the conversion and what follows
it. -/
def Spec.read? (s : List Char) : Option (Spec × List Char) :=
  let flags := s.takeWhile isFlag
  let afterFlags := s.dropWhile isFlag
  let width := fieldValue (afterFlags.takeWhile Char.isDigit)
  let (precision, afterFields) := readPrecision (afterFlags.dropWhile Char.isDigit)
  if fits width && fits precision then
    match afterFields with
    | [] => none
    | letter :: rest =>
      (Kind.ofLetter? letter).map fun kind =>
        ({ left := flags.contains '-'
           zero := flags.contains '0'
           plus := flags.contains '+'
           space := flags.contains ' '
           group := flags.contains ','
           width := width
           precision := precision
           kind := kind }, rest)
  else none

/-! ## Writing -/

/-- A text before padding (`Piece`).  Zeros for padding go between the sign and the digits of a
number, and only there. -/
structure Body where
  sign : List Char
  digits : List Char
  numeric : Bool
  deriving DecidableEq

/-- A text that is no number (`text`). -/
def Body.ofText (s : List Char) : Body := ⟨[], s, false⟩

/-- A number with the sign that the flags ask for (`number`). -/
def Body.ofNumber (spec : Spec) (negative : Bool) (digits : List Char) : Body :=
  let sign := if negative then ['-'] else if spec.plus then ['+'] else if spec.space then [' '] else []
  ⟨sign, digits, true⟩

/-- The least and the greatest whole number that can be written. -/
def wholeBound : Int := Nat.pow 2 127

/-- The whole number of a scalar (`integer`): integers, binary64 numbers without a fraction as far
as 128 bits reach, and timestamps. -/
def wholeNumber? : Scalar → Option Int
  | .number (.signed n) => some n.toInt
  | .number (.unsigned n) => some n.toNat
  | .number (.binary x) =>
    if x.isWhole then some (x.clamped (-wholeBound) (wholeBound - 1)) else none
  | .timestamp t => some t.millis.toInt
  | _ => none

/-- The binary64 number of a scalar (`float`). -/
def binary64? : Scalar → Option Binary64
  | .number n => some n.toBinary64
  | .timestamp t => some (.ofInt t.millis.toInt)
  | _ => none

/-- The first `precision` characters of a text, or all of it (`truncate`). -/
def cut (s : List Char) (precision : Option Nat) : List Char :=
  match precision with
  | some n => s.take n
  | none => s

/-- The names of what is not finite (`non_finite`). -/
def notFiniteText (x : Binary64) : List Char :=
  if x.isNaN then "NaN".toList
  else if x.negative then "-Infinity".toList
  else "Infinity".toList

/-- The hexadecimal digits of a whole number; a negative one is written as the 64 bits of its two's
complement. -/
def hexDigits (n : Int) : List Char :=
  if n < 0 then hexadecimal (n % Nat.pow 2 64).toNat else hexadecimal n.toNat

/-- The scientific form of a magnitude (`scientific`): digits, an `e`, the sign of the exponent and
at least two digits of it. -/
def exponentText (x : Binary64) (places : Nat) (decimalSeparator : Char) : List Char :=
  let (digits, lead) := x.abs.scientific places
  let mantissa := (withPoint places digits).map (fun c => if c = '.' then decimalSeparator else c)
  mantissa ++ 'e' :: (if lead < 0 then '-' else '+') :: padded 2 lead.natAbs

/-- The places of a conversion to decimals without a precision. -/
def usualPlaces : Nat := 6

/-- The sign and the text that a conversion writes for a scalar, by the cases of `render`.  A scalar
that is not of the kind the conversion needs is written as its display text. -/
def Spec.body (spec : Spec) (value : Scalar) (c : Conventions) : Body :=
  let display := value.display.toList
  match spec.kind with
  | .text => .ofText (cut display spec.precision)
  | .capitals => .ofText (Text.uppercase (cut display spec.precision))
  | .truth =>
    let flag := match value with
      | .bool b => b
      | _ => true
    .ofText (cut (toString flag).toList spec.precision)
  | .integer =>
    match wholeNumber? value with
    | some n =>
      let digits := decimal n.natAbs
      .ofNumber spec (n < 0) (if spec.group then groupDigits c.groupingSeparator digits else digits)
    | none => .ofText display
  | .hex capital =>
    match wholeNumber? value with
    | some n =>
      .ofNumber spec false (if capital then (hexDigits n).map Char.toUpper else hexDigits n)
    | none => .ofText display
  | .places =>
    match binary64? value with
    | some x =>
      if x.isFinite then
        .ofNumber spec x.belowZero
          (c.decimalText x (spec.precision.getD usualPlaces) spec.group)
      else .ofText (notFiniteText x)
    | none => .ofText display
  | .exponent =>
    match binary64? value with
    | some x =>
      if x.isFinite then
        .ofNumber spec x.belowZero
          (exponentText x (spec.precision.getD usualPlaces) c.decimalSeparator)
      else .ofText (notFiniteText x)
    | none => .ofText display
  | .percent => .ofText ['%']
  | .lineFeed => .ofText ['\n']

/-- A body filled up to the width (`pad`): with spaces behind it, with zeros behind its sign, or
with spaces in front of it. -/
def Spec.pad (spec : Spec) (b : Body) : List Char :=
  let fill := spec.width.getD 0 - (b.sign.length + b.digits.length)
  if spec.left then b.sign ++ b.digits ++ List.replicate fill ' '
  else if spec.zero && b.numeric then b.sign ++ List.replicate fill '0' ++ b.digits
  else List.replicate fill ' ' ++ b.sign ++ b.digits

/-- The text of a conversion. -/
def Spec.render (spec : Spec) (value : Scalar) (c : Conventions) : List Char :=
  match spec.kind with
  | .lineFeed => ['\n']
  | _ => spec.pad (spec.body value c)

/-- Expands a pattern; each step uses up at least one of the `fuel` characters. -/
def expandFrom (value : Scalar) (c : Conventions) : Nat → List Char → List Char
  | 0, _ => []
  | _, [] => []
  | fuel + 1, '%' :: r =>
    match Spec.read? r with
    | some (spec, rest) => spec.render value c ++ expandFrom value c fuel rest
    | none => '%' :: expandFrom value c fuel r
  | fuel + 1, x :: r => x :: expandFrom value c fuel r

/-- The text of a pattern for one scalar (`sprintf`). -/
def expand (pattern : String) (value : Scalar) (c : Conventions) : String :=
  String.ofList (expandFrom value c pattern.length pattern.toList)

end Stencil.Conversion
