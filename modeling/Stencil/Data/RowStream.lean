import Stencil.Data.Cursor
import Stencil.Data.Row

/-!
# Row streams

A row stream reads the rows of a cursor when they are asked for, each of them once.  Asking whether
there is another row may read one row ahead, which is then kept for the next request.  A stream owns
the resources behind its cursor and closes them after it.

* `RowStream.fetch`: the next row, if there is one;
* `RowStream.hasNext`, `RowStream.nextRow`, `RowStream.next`: the ways in which rows are asked for;
* `RowStream.owning`, `RowStream.close`: registers a resource, and closes the cursor and then every
  resource, once.

A failure while a row is read loses that row; the labels are asked for again until they are known.
While the cursor is at work its stream is `lent` and answers nothing.  Every call that reaches the
cursor or a resource is noted in `calls`, the latest first.
-/

namespace Stencil

/-- A call that reaches a cursor, or the resource of the given number behind it. -/
inductive Call where
  | advance
  | labels
  | value (index : Nat)
  | closeCursor
  | closeResource (index : Nat)
  deriving DecidableEq

/-- A row stream (`RowAdapter`, with its `CursorState`): its cursor, the labels once they are known,
the row that has been read ahead, and whether the end has been reached, the stream has been closed,
or the cursor is at work. -/
structure RowStream where
  cursor : Cursor
  labels : Option (List String)
  pending : Option Row
  exhausted : Bool
  closed : Bool
  lent : Bool
  resources : List Resource
  calls : List Call

namespace RowStream

/-- A stream before its first row (`new`). -/
def ofCursor (cursor : Cursor) (resources : List Resource) : RowStream :=
  { cursor := cursor
    labels := none
    pending := none
    exhausted := false
    closed := false
    lent := false
    resources := resources
    calls := [] }

/-- The stream with one more resource behind its cursor. -/
def owning (s : RowStream) (r : Resource) : RowStream := { s with resources := s.resources ++ [r] }

/-- Notes a call. -/
def note (s : RowStream) (call : Call) : RowStream := { s with calls := call :: s.calls }

/-! ## Rows -/

/-- The labels, asked for unless they are known. -/
def knownLabels (s : RowStream) : Except DataError (List String) × RowStream :=
  match s.labels with
  | some labels => (.ok labels, s)
  | none =>
    match s.cursor.askLabels with
    | (.ok labels, c) => (.ok labels, { s.note .labels with cursor := c, labels := some labels })
    | (.error e, c) => (.error e, { s.note .labels with cursor := c })

/-- Reads the columns of the current row from `index` on into a row. -/
def readColumns : List String → (index : Nat) → Row → RowStream → Except DataError Row × RowStream
  | [], _, row, s => (.ok row, s)
  | label :: labels, index, row, s =>
    let noted := s.note (.value index)
    match s.cursor.column index with
    | .error e => (.error e, noted)
    | .ok value => readColumns labels (index + 1) (row.insertPath label (value.elim .null .scalar)) noted

/-- Reads the row that the cursor stands on, in `fetch`. -/
def readRow (s : RowStream) : Except DataError (Option Row) × RowStream :=
  match s.knownLabels with
  | (.error e, s) => (.error e, s)
  | (.ok labels, s) =>
    match s.readColumns labels 0 [] with
    | (.error e, s) => (.error e, s)
    | (.ok row, s) => (.ok (some row), s)

/-- The next row, if there is one. -/
def fetch (s : RowStream) : Except DataError (Option Row) × RowStream :=
  match s.pending with
  | some row => (.ok (some row), { s with pending := none })
  | none =>
    if s.exhausted then (.ok none, s)
    else
      let noted := s.note .advance
      match s.cursor.advance with
      | (.error e, c) => (.error e, { noted with cursor := c })
      | (.ok false, c) => (.ok none, { noted with cursor := c, exhausted := true })
      | (.ok true, c) => readRow { noted with cursor := c }

/-- Whether there is another row; it is read ahead to know (`has_next`). -/
def peek (s : RowStream) : Except DataError Bool × RowStream :=
  match s.pending with
  | some _ => (.ok true, s)
  | none =>
    match s.fetch with
    | (.error e, s) => (.error e, s)
    | (.ok row, s) => (.ok row.isSome, { s with pending := row })

/-! ## Closing -/

/-- Closes resources from the number `index` on: the first failure, and the noted calls. -/
def closeResources : List Resource → (index : Nat) → (first : Option DataError) → List Call →
    Option DataError × List Call
  | [], _, first, calls => (first, calls)
  | r :: rest, index, first, calls =>
    let failed := match r.closing with
      | .ok () => none
      | .error e => some (.close r.stage e.message)
    closeResources rest (index + 1) (first.or failed) (.closeResource index :: calls)

/-- Closes the cursor and then every resource, whatever fails on the way (`close` of `CursorState`).
The first failure is reported.  Closing again does nothing. -/
def shut (s : RowStream) : Except DataError Unit × RowStream :=
  if s.closed then (.ok (), s)
  else
    let failed := match s.cursor.closing with
      | .ok () => none
      | .error e => some (.close "cursor" e.message)
    let (first, calls) := closeResources s.resources 0 failed (.closeCursor :: s.calls)
    let ended := { s with closed := true, exhausted := true, pending := none, calls := calls }
    match first with
    | some e => (.error e, ended)
    | none => (.ok (), ended)

/-! ## Requests

A request to a stream whose cursor is at work is refused. -/

/-- Carries out a request unless the cursor is at work (`state_mut`). -/
def unlessLent {α : Type} (request : RowStream → Except DataError α × RowStream) (s : RowStream) :
    Except DataError α × RowStream :=
  if s.lent then (.error (.unsupported .concurrentIteration), s) else request s

/-- Whether there is another row. -/
def hasNext (s : RowStream) : Except DataError Bool × RowStream := s.unlessLent peek

/-- The next row, if there is one. -/
def next (s : RowStream) : Except DataError (Option Row) × RowStream := s.unlessLent fetch

/-- The next row; there must be one. -/
def nextRow (s : RowStream) : Except DataError Row × RowStream :=
  match s.next with
  | (.ok (some row), s) => (.ok row, s)
  | (.ok none, s) => (.error .exhausted, s)
  | (.error e, s) => (.error e, s)

/-- Closes the stream. -/
def close (s : RowStream) : Except DataError Unit × RowStream := s.unlessLent shut

end RowStream

end Stencil
