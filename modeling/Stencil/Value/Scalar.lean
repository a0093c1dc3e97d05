import Stencil.Number.Places
import Stencil.Calendar.Pattern

/-!
# Scalars

The values that are written as text: texts, numbers, truth values and timestamps.

* `Numeral`: a number in one of three representations, which are kept apart because they print
  differently;
* `Timestamp`: an instant in milliseconds since 1 January 1970;
* `Scalar.display`: the text a scalar is written as.
-/

namespace Stencil

open Number Calendar

/-- A number (`Number`): a signed or an unsigned 64-bit integer, or a binary64 number. -/
inductive Numeral where
  | signed (n : Int64)
  | unsigned (n : UInt64)
  | binary (x : Binary64)
  deriving DecidableEq

namespace Numeral

/-- The nearest binary64 number (`to_f64`). -/
def toBinary64 : Numeral → Binary64
  | .signed n => .ofInt n.toInt
  | .unsigned n => .ofNat n.toNat
  | .binary x => x

/-- The number as a signed 64-bit integer (`to_i64`): an unsigned one wraps around, a binary64
number loses its fraction and stops at the bounds. -/
def toInt64 : Numeral → Int64
  | .signed n => n
  | .unsigned n => n.toInt64
  | .binary x => Int64.ofInt (x.clamped Int64.minValue.toInt Int64.maxValue.toInt)

/-- Whether the number is in one of the integer representations. -/
def isInteger : Numeral → Bool
  | .binary _ => false
  | _ => true

/-- The least magnitude from which a whole binary64 number is written without a point. -/
def plainFrom : Nat := Nat.pow 10 16

/-- The text of a number.  A whole binary64 number below `10 ^ 16` is written with the digit zero
after its point, so that it differs from an integer. -/
def display : Numeral → List Char
  | .signed n => signedDecimal n.toInt
  | .unsigned n => decimal n.toNat
  | .binary x =>
    if x.isWhole && x.numerator / x.denominator < plainFrom then x.fixed 1 else x.plain

end Numeral

/-- An instant, in milliseconds since 1 January 1970, midnight UTC. -/
structure Timestamp where
  millis : Int64
  deriving DecidableEq

namespace Timestamp

/-- What clocks and calendars show at `offset` seconds from UTC, if the instant is in range
(`to_datetime`). -/
def moment? (t : Timestamp) (offset : Int) : Option Moment := Moment.at? t.millis.toInt offset

/-- The exact date and time in UTC, or the bare number out of range. -/
def display (t : Timestamp) : List Char :=
  match t.moment? 0 with
  | some m => m.exactText
  | none => signedDecimal t.millis.toInt

end Timestamp

/-- A value that is written as text. -/
inductive Scalar where
  | text (s : String)
  | number (n : Numeral)
  | bool (b : Bool)
  | timestamp (t : Timestamp)
  deriving DecidableEq

namespace Scalar

/-- The text of a scalar. -/
def display : Scalar → String
  | .text s => s
  | .number n => String.ofList n.display
  | .bool b => if b then "true" else "false"
  | .timestamp t => String.ofList t.display

/-- The name of the kind of a scalar, for messages. -/
def kind : Scalar → String
  | .text _ => "string"
  | .number _ => "number"
  | .bool _ => "boolean"
  | .timestamp _ => "timestamp"

end Scalar

end Stencil
