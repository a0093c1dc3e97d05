import Stencil.Calendar.Moment
import Stencil.Number.Digits

/-!
# Patterns for dates and times

A pattern is a text in which a percent sign starts a field of the moment: `%Y-%m-%d` writes
`2020-01-05`.  `Field.ofCode?` lists the fields; everything else in a pattern stands for itself.
Patterns are written by `chrono`: this module follows its documented fields, as far as the patterns
of `Stencil.Locale.Conventions` and of `Stencil.Modifier.Format` use them.

* `Pattern.pieces`: a pattern as literal characters and fields;
* `Pattern.render`: the text of a moment, with the names of a language;
* `offsetText`: the distance from UTC as sign, hours and minutes.
-/

namespace Stencil.Calendar

open Stencil.Number

/-- The names that dates need in one language; lists start with January and with Sunday. -/
structure Names where
  shortMonths : List String
  months : List String
  weekdays : List String
  deriving DecidableEq

/-- A field of a moment.  `digits` is the least number of digits. -/
inductive Field where
  /-- The year: four digits, and outside 0 to 9999 a sign. -/
  | year
  /-- The year within its century. -/
  | yearOfCentury
  | month (digits : Nat)
  | monthShort
  | monthName
  | day (digits : Nat)
  | weekdayName
  | hour (digits : Nat)
  /-- The hour from 1 to 12. -/
  | hourOfHalf (digits : Nat)
  | minute
  | second
  /-- Nothing for a whole second, else a point and three digits. -/
  | fractionOfSecond
  /-- `AM` before noon, then `PM`. -/
  | half
  /-- The distance from UTC. -/
  | offset
  deriving DecidableEq

/-- A literal character or a field. -/
inductive Piece where
  | literal (c : Char)
  | field (f : Field)
  deriving DecidableEq

/-- The field that a percent sign and the following characters name, and what follows it. -/
def Field.ofCode? : List Char → Option (Field × List Char)
  | 'Y' :: r => some (.year, r)
  | 'y' :: r => some (.yearOfCentury, r)
  | 'm' :: r => some (.month 2, r)
  | '-' :: 'm' :: r => some (.month 1, r)
  | 'b' :: r => some (.monthShort, r)
  | 'B' :: r => some (.monthName, r)
  | 'd' :: r => some (.day 2, r)
  | '-' :: 'd' :: r => some (.day 1, r)
  | 'A' :: r => some (.weekdayName, r)
  | 'H' :: r => some (.hour 2, r)
  | '-' :: 'H' :: r => some (.hour 1, r)
  | 'I' :: r => some (.hourOfHalf 2, r)
  | '-' :: 'I' :: r => some (.hourOfHalf 1, r)
  | 'M' :: r => some (.minute, r)
  | 'S' :: r => some (.second, r)
  | '.' :: 'f' :: r => some (.fractionOfSecond, r)
  | 'p' :: r => some (.half, r)
  | ':' :: 'z' :: r => some (.offset, r)
  | _ => none

/-- Reads a pattern; each step uses up at least one of the `fuel` characters. -/
def Pattern.piecesFrom : Nat → List Char → List Piece
  | 0, _ => []
  | _, [] => []
  | fuel + 1, '%' :: r =>
    match Field.ofCode? r with
    | some (f, rest) => .field f :: piecesFrom fuel rest
    | none => .literal '%' :: piecesFrom fuel r
  | fuel + 1, c :: r => .literal c :: piecesFrom fuel r

/-- The literal characters and fields of a pattern, in order. -/
def Pattern.pieces (pattern : List Char) : List Piece := piecesFrom pattern.length pattern

/-- A year with at least four digits; years outside 0 to 9999 carry a sign. -/
def yearText (year : Int) : List Char :=
  if 0 ≤ year ∧ year ≤ 9999 then padded 4 year.toNat
  else (if year < 0 then '-' else '+') :: padded 4 year.natAbs

/-- A distance from UTC as a sign, hours and minutes, rounded to the nearest minute, half a minute
up. -/
def offsetText (offset : Int) : List Char :=
  let minutes := (offset.natAbs + 30) / 60
  (if offset < 0 then '-' else '+') :: (padded 2 (minutes / 60) ++ ':' :: padded 2 (minutes % 60))

/-- A fraction of a second: a point and three digits, or nothing. -/
def fractionText (millisecond : Nat) : List Char :=
  if millisecond = 0 then [] else '.' :: padded 3 millisecond

/-- The text of one field. -/
def Field.render (names : Names) (m : Moment) : Field → List Char
  | .year => yearText m.date.year
  | .yearOfCentury => padded 2 (m.date.year.fmod 100).toNat
  | .month digits => padded digits m.date.month
  | .monthShort => (names.shortMonths.getD (m.date.month - 1) "").toList
  | .monthName => (names.months.getD (m.date.month - 1) "").toList
  | .day digits => padded digits m.date.day
  | .weekdayName => (names.weekdays.getD m.weekday "").toList
  | .hour digits => padded digits m.hour
  | .hourOfHalf digits => padded digits (if m.hour % 12 = 0 then 12 else m.hour % 12)
  | .minute => padded 2 m.minute
  | .second => padded 2 m.second
  | .fractionOfSecond => fractionText m.millisecond
  | .half => if m.hour < 12 then ['A', 'M'] else ['P', 'M']
  | .offset => offsetText m.offset

/-- The text of a literal character or a field. -/
def Piece.render (names : Names) (m : Moment) : Piece → List Char
  | .literal c => [c]
  | .field f => f.render names m

/-- The text of a moment under a pattern. -/
def Pattern.render (names : Names) (pattern : List Char) (m : Moment) : List Char :=
  (pieces pattern).flatMap (·.render names m)

/-- The exact text of a moment in UTC, to the millisecond: `2020-01-05T15:04:05.000Z`. -/
def Moment.exactText (m : Moment) : List Char :=
  yearText m.date.year ++ '-' :: padded 2 m.date.month ++ '-' :: padded 2 m.date.day
    ++ 'T' :: padded 2 m.hour ++ ':' :: padded 2 m.minute ++ ':' :: padded 2 m.second
    ++ '.' :: padded 3 m.millisecond ++ ['Z']

end Stencil.Calendar
