import Stencil.Value.Scalar

/-!
# Documents

A document is a value in the sense of JSON: null, a truth value, a number, a text, a list of
documents or an object of named documents.

A number is kept in one of three forms, as `serde_json` documents for its `Number`: a natural number
of 64 bits, a number below zero of 64 bits, or a binary64 number.  A form tells how the number was
read, and not what it can be used as: a small natural number is a signed one, too.

* `DocumentNumber`: a number in one of these forms, and what it can be used as;
* `Numeral.ofDocument`: the numeral of a number, the same for every way in which a document becomes
  a value;
* `Document`: a document.
-/

namespace Stencil

open Number

/-- A number of a document, in the form that it is kept in. -/
inductive DocumentNumber where
  | natural (n : UInt64)
  | negative (n : Int64) (h : n < 0)
  | binary (x : Binary64)
  deriving DecidableEq

namespace DocumentNumber

/-- The form of a signed number. -/
def signed (n : Int64) : DocumentNumber :=
  if h : n < 0 then .negative n h else .natural n.toUInt64

/-- The form of an unsigned number. -/
def unsigned (n : UInt64) : DocumentNumber := .natural n

instance : Inhabited DocumentNumber where
  default := .natural 0

/-- The number as a signed one (`as_i64`), if it is a whole number that fits. -/
def asSigned? : DocumentNumber → Option Int64
  | .natural n => if n ≤ Int64.maxValue.toUInt64 then some n.toInt64 else none
  | .negative n _ => some n
  | .binary _ => none

/-- The number as an unsigned one (`as_u64`), if it is a natural number. -/
def asUnsigned? : DocumentNumber → Option UInt64
  | .natural n => some n
  | .negative .. => none
  | .binary _ => none

/-- The nearest binary64 number (`as_f64`). -/
def asBinary? : DocumentNumber → Option Binary64
  | .natural n => some (.ofNat n.toNat)
  | .negative n _ => some (.ofInt n.toInt)
  | .binary x => some x

end DocumentNumber

/-- The numeral of a number of a document (`json_number`): signed where it fits, else unsigned, and
else binary64. -/
def Numeral.ofDocument (n : DocumentNumber) : Numeral :=
  match n.asSigned? with
  | some i => .signed i
  | none =>
    match n.asUnsigned? with
    | some u => .unsigned u
    | none => .binary (n.asBinary?.getD .nan)

/-- A JSON document.  The fields of an object have different names. -/
inductive Document where
  | null
  | bool (b : Bool)
  | number (n : DocumentNumber)
  | text (s : String)
  | list (items : List Document)
  | object (fields : List (String × Document))
  deriving Inhabited

end Stencil
