import Stencil.Data.Document
import Stencil.Data.Fields
import Stencil.Text.Cut

/-!
# Rows

A row holds named cells in order.  A column label with points is a path: the labels `a`, `b.c` and
`b.d` make a row of `a` and of a nested row `b` with `c` and `d`.

* `Row.insertPath`: writes a cell under a path;
* `Row.ofPairs`: the row of labelled cells, written one after the other;
* `Row.ofObject`: the row of an object, whose keys are names and no paths.
-/

namespace Stencil

/-- What a row holds under a name. -/
inductive Cell where
  | null
  | scalar (s : Scalar)
  | nested (cells : List (String × Cell))
  | list (cells : List Cell)
  deriving Inhabited

/-- Named cells, in order; the names are different. -/
abbrev Row := List (String × Cell)

/-- The cells of a nested row; none for any other cell. -/
def Cell.inner : Option Cell → Row
  | some (.nested cells) => cells
  | _ => []

namespace Row

/-- Writes a cell under the steps of a path (`insert_parts`).  Whatever stands where a nested row is
needed gives way to one. -/
def insertSteps : List String → Cell → Row → Row
  | [], _, row => row
  | [name], cell, row => Fields.put name cell row
  | name :: steps, cell, row =>
    Fields.put name (.nested (insertSteps steps cell (Cell.inner (Fields.get? name row)))) row

/-- The steps of a path. -/
def stepsOf (path : String) : List String := (Text.splitAt '.' path.toList).map String.ofList

/-- Writes a cell under a path. -/
def insertPath (path : String) (cell : Cell) (row : Row) : Row :=
  insertSteps (stepsOf path) cell row

/-- The row of labelled cells (`from_iter`). -/
def ofPairs (cells : List (String × Cell)) : Row :=
  cells.foldl (fun row (label, cell) => row.insertPath label cell) []

end Row

mutual

/-- The cell of a document. -/
def Cell.ofDocument : Document → Cell
  | .null => .null
  | .bool b => .scalar (.bool b)
  | .number n => .scalar (.number (.ofDocument n))
  | .text s => .scalar (.text s)
  | .list items => .list (Cell.ofDocuments items)
  | .object fields => .nested (Row.ofObject fields)

/-- The cells of documents, one for each. -/
def Cell.ofDocuments : List Document → List Cell
  | [] => []
  | d :: rest => Cell.ofDocument d :: Cell.ofDocuments rest

/-- The row of an object: every key is a name, even one with points. -/
def Row.ofObject : List (String × Document) → Row
  | [] => []
  | (key, d) :: rest => (key, Cell.ofDocument d) :: Row.ofObject rest

end

end Stencil
