import Stencil.Number.Shortest
import Stencil.Text.Quoted
import Stencil.Value.Basic

/-!
# Diagnostic forms of values

The form of a value in diagnostic output tells its type and representation, which its display text
does not: `Number(U64(5))`, `String("5")`.  The contents of dictionaries and sequences are left out.
-/

namespace Stencil

open Number Text

/-- A form with one part in parentheses. -/
def diagnosticForm (name part : String) : String := name ++ "(" ++ part ++ ")"

/-- The diagnostic form of a number. -/
def Numeral.diagnostic : Numeral → String
  | .signed n => diagnosticForm "I64" (String.ofList (signedDecimal n.toInt))
  | .unsigned n => diagnosticForm "U64" (String.ofList (decimal n.toNat))
  | .binary x => diagnosticForm "F64" (String.ofList x.diagnostic)

/-- The diagnostic form of a timestamp. -/
def Timestamp.diagnostic (t : Timestamp) : String :=
  diagnosticForm "Timestamp" (String.ofList (signedDecimal t.millis.toInt))

/-- The diagnostic form of a scalar. -/
def Scalar.diagnostic : Scalar → String
  | .text s => diagnosticForm "String" (quoted s)
  | .number n => diagnosticForm "Number" n.diagnostic
  | .bool b => diagnosticForm "Bool" (if b then "true" else "false")
  | .timestamp t => diagnosticForm "Timestamp" t.diagnostic

/-- The diagnostic form of a value. -/
def Value.diagnostic : Value → String
  | .null => "Null"
  | .scalar s => s.diagnostic
  | .record _ | .element _ | .own _ => diagnosticForm "Dictionary" ".."
  | .list _ | .series _ | .stream _ => diagnosticForm "Sequence" ".."

end Stencil
