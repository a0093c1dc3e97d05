import Stencil.Data.RowStream

/-!
# Single-pass sequences

A single-pass sequence gives its elements once, and whoever asks first gets them.  Values therefore
hold only the number of such a sequence, and `Streams` holds what is left of each.

* `ItemStream`: a sequence of rows that are at hand;
* `Stream`: a row stream or an item stream;
* `Streams`: the sequences in use, and the calls that have reached cursors and resources.
-/

namespace Stencil

/-- A sequence of rows that are at hand (`IteratorAdapter`); while the source of the rows is at work
it is `lent`. -/
structure ItemStream where
  rows : List Row
  lent : Bool

namespace ItemStream

/-- Carries out a request unless the source of the rows is at work. -/
def unlessLent {α : Type} (s : ItemStream) (answer : α × ItemStream) :
    Except DataError α × ItemStream :=
  if s.lent then (.error (.unsupported .concurrentIteration), s) else (.ok answer.1, answer.2)

/-- The next row, if there is one. -/
def next (s : ItemStream) : Except DataError (Option Row) × ItemStream :=
  s.unlessLent (s.rows.head?, { s with rows := s.rows.tail })

/-- Whether there is another row. -/
def hasNext (s : ItemStream) : Except DataError Bool × ItemStream :=
  s.unlessLent (!s.rows.isEmpty, s)

/-- The next row; there must be one. -/
def nextRow (s : ItemStream) : Except DataError Row × ItemStream :=
  match s.next with
  | (.ok (some row), s) => (.ok row, s)
  | (.ok none, s) => (.error .exhausted, s)
  | (.error e, s) => (.error e, s)

end ItemStream

/-- A single-pass sequence. -/
inductive Stream where
  | rows (s : RowStream)
  | items (s : ItemStream)

namespace Stream

/-- The next row, if there is one. -/
def next : Stream → Except DataError (Option Row) × Stream
  | .rows s => let (row, s) := s.next; (row, .rows s)
  | .items s => let (row, s) := s.next; (row, .items s)

/-- The next row; there must be one. -/
def nextRow : Stream → Except DataError Row × Stream
  | .rows s => let (row, s) := s.nextRow; (row, .rows s)
  | .items s => let (row, s) := s.nextRow; (row, .items s)

/-- Whether there is another row. -/
def hasNext : Stream → Except DataError Bool × Stream
  | .rows s => let (more, s) := s.hasNext; (more, .rows s)
  | .items s => let (more, s) := s.hasNext; (more, .items s)

/-- Closes the sequence; there is nothing to close behind rows that are at hand. -/
def close : Stream → Except DataError Unit × Stream
  | .rows s => let (done, s) := s.close; (done, .rows s)
  | .items s => (.ok (), .items s)

/-- An upper bound of the elements and failures that a sequence still gives. -/
def stepsLeft : Stream → Nat
  | .rows s => s.cursor.moves.length + 1
  | .items s => s.rows.length

/-- The calls noted by a sequence, the latest first. -/
def calls : Stream → List Call
  | .rows s => s.calls
  | .items _ => []

/-- The sequence without its noted calls. -/
def withoutCalls : Stream → Stream
  | .rows s => .rows { s with calls := [] }
  | .items s => .items s

end Stream

/-- The single-pass sequences in use, and the calls that have reached the cursors and resources of
each, the latest first. -/
structure Streams where
  streams : List Stream
  log : List (Nat × Call)

namespace Streams

/-- No sequences. -/
def empty : Streams := ⟨[], []⟩

/-- Adds a sequence, and gives its number. -/
def add (s : Streams) (stream : Stream) : Nat × Streams :=
  (s.streams.length, { s with streams := s.streams ++ [stream] })

/-- Sends a request to a sequence; `absent` answers for a number that belongs to none. -/
def request {α : Type} (absent : α) (send : Stream → Except DataError α × Stream) (id : Nat)
    (s : Streams) : Except DataError α × Streams :=
  match s.streams[id]? with
  | none => (.ok absent, s)
  | some stream =>
    let (answer, stream) := send stream
    (answer, { streams := s.streams.set id stream.withoutCalls
               log := stream.calls.map (id, ·) ++ s.log })

/-- The next row of a sequence, if there is one. -/
def next : Nat → Streams → Except DataError (Option Row) × Streams := request none Stream.next

/-- The next row of a sequence; there must be one. -/
def nextRow : Nat → Streams → Except DataError Row × Streams := request [] Stream.nextRow

/-- Whether a sequence has another row. -/
def hasNext : Nat → Streams → Except DataError Bool × Streams := request false Stream.hasNext

/-- Closes a sequence. -/
def close : Nat → Streams → Except DataError Unit × Streams := request () Stream.close

/-- Closes sequences one after the other, whatever fails. -/
def closeAll (ids : List Nat) (s : Streams) : Streams := ids.foldl (fun s id => (close id s).2) s

/-- An upper bound of what a sequence still gives. -/
def stepsLeft (id : Nat) (s : Streams) : Nat := (s.streams[id]?).elim 0 Stream.stepsLeft

end Streams

end Stencil
