import Stencil.Data.Error
import Stencil.Value.Scalar

/-!
# Cursors

A cursor gives the rows of a query one after the other, forward only.  It is kept as what it
answers:

* `Column`: the answer for one column of the current row, which may be a failure;
* `Move`: what one step forward gives, a row or a failure that leaves the cursor where it is;
* `Cursor`: the steps that are left, and what asking for labels and closing give;
* `Resource`: something that is closed after a cursor, such as a statement or a connection.
-/

namespace Stencil

/-- The answer for one column: a scalar, none for a missing value, or a failure. -/
abbrev Column := Except DataError (Option Scalar)

/-- What one step forward gives. -/
inductive Move where
  | row (columns : List Column)
  | failure (e : DataError)

/-- A cursor: the answers to the steps that are left, behind which it is at its end; the columns of
the current row; the answer to asking for labels, after some failures at first; and the answer to
closing. -/
structure Cursor where
  moves : List Move
  columns : List Column
  labelFailures : List DataError
  labels : Except DataError (List String)
  closing : Except DataError Unit

namespace Cursor

/-- A cursor before the first of its rows that never fails. -/
def ofRows (labels : List String) (rows : List (List (Option Scalar))) : Cursor :=
  { moves := rows.map (fun row => .row (row.map .ok))
    columns := []
    labelFailures := []
    labels := .ok labels
    closing := .ok () }

/-- Moves to the next row: whether there is one. -/
def advance (c : Cursor) : Except DataError Bool × Cursor :=
  match c.moves with
  | [] => (.ok false, { c with columns := [] })
  | .failure e :: rest => (.error e, { c with moves := rest })
  | .row columns :: rest => (.ok true, { c with moves := rest, columns := columns })

/-- Asks for the column labels (`labels`). -/
def askLabels (c : Cursor) : Except DataError (List String) × Cursor :=
  match c.labelFailures with
  | e :: rest => (.error e, { c with labelFailures := rest })
  | [] => (c.labels, c)

/-- The column at an index in the current row (`value`). -/
def column (c : Cursor) (index : Nat) : Column :=
  (c.columns[index]?).getD (.error (.source "column out of range"))

end Cursor

/-- Something that is closed after a cursor.  The name, if it has one, tells its failures apart. -/
structure Resource where
  name : Option String
  closing : Except DataError Unit

/-- The name under which a failure to close is reported (`name`). -/
def Resource.stage (r : Resource) : String := r.name.getD "resource"

end Stencil
