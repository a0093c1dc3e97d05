import Stencil.Input.Error
import Stencil.Output.Sink

/-!
# Buffered output of bytes

A buffered sink writes the bytes of text to a writer, in pieces of some size.  A failure of the
writer is kept until it is asked for, and as long as it is kept, all text is dropped.  The sink is
`IoSink`; how its buffer fills and is written follows the documented behaviour of `BufWriter`.

* `ByteWriter`: a destination of bytes that may take a part of what it is given, or fail;
* `BoundedWriter`: a writer that takes a write whole or not at all, up to a limit;
* `Buffered`: the sink, with `flush`, `finish` and `drop` for the bytes that are still buffered.

The bytes that a writer has not taken stay in the buffer.
-/

namespace Stencil

/-- A destination of bytes (`Write`).  A write tells how many bytes have been taken; one that was
interrupted has been made again by then. -/
class ByteWriter (ω : Type) where
  write : ω → List UInt8 → Except IoError Nat × ω
  flush : ω → Except IoError Unit × ω

/-- The bytes written so far, and how many there may be, if there is a limit. -/
structure BoundedWriter where
  bytes : Array UInt8
  limit : Option Nat

/-- An empty writer. -/
def BoundedWriter.ofLimit (limit : Option Nat) : BoundedWriter := ⟨#[], limit⟩

/-- A write is within the limit. -/
def BoundedWriter.fits (w : BoundedWriter) (count : Nat) : Bool :=
  match w.limit with
  | some limit => w.bytes.size + count ≤ limit
  | none => true

instance : ByteWriter BoundedWriter where
  write w bytes :=
    if w.fits bytes.length then (.ok bytes.length, { w with bytes := w.bytes ++ bytes.toArray })
    else (.error (.of .brokenPipe "closed"), w)
  flush w := (.ok (), w)

/-- Writes until all bytes are taken, or no more are: what is left over, and the failure if there
was one.  Each write takes at least one of the `fuel` bytes. -/
def writeAll {ω : Type} [ByteWriter ω] (stuck : String) :
    Nat → List UInt8 → ω → Except IoError Unit × List UInt8 × ω
  | _, [], w => (.ok (), [], w)
  | 0, bytes, w => (.error (.of .writeZero stuck), bytes, w)
  | fuel + 1, bytes, w =>
    match ByteWriter.write w bytes with
    | (.error e, w) => (.error e, bytes, w)
    | (.ok 0, w) => (.error (.of .writeZero stuck), bytes, w)
    | (.ok (n + 1), w) => writeAll stuck fuel (bytes.drop (n + 1)) w

/-- A sink that buffers bytes for a writer (`IoSink`, over a `BufWriter`), with the first failure
that has not been taken. -/
structure Buffered (ω : Type) where
  writer : ω
  buffer : Array UInt8
  error : Option IoError

namespace Buffered

/-- The bytes that fit into the buffer. -/
def capacity : Nat := 8192

variable {ω : Type}

/-- An empty sink. -/
def ofWriter (w : ω) : Buffered ω := ⟨w, #[], none⟩

variable [ByteWriter ω]

/-- Writes the buffered bytes. -/
def flushBuffer (s : Buffered ω) : Except IoError Unit × Buffered ω :=
  let bytes := s.buffer.toList
  let (result, left, w) := writeAll "failed to write the buffered data" bytes.length bytes s.writer
  (result, { s with writer := w, buffer := left.toArray })

/-- Writes bytes behind an empty buffer: many go to the writer at once, others into the buffer. -/
def writeBehind (s : Buffered ω) (bytes : Array UInt8) : Except IoError Unit × Buffered ω :=
  if capacity ≤ bytes.size then
    let (result, _, w) := writeAll "failed to write whole buffer" bytes.size bytes.toList s.writer
    (result, { s with writer := w })
  else (.ok (), { s with buffer := s.buffer ++ bytes })

/-- Writes bytes.  The buffer is written first when they do not fit behind it. -/
def writeBytes (s : Buffered ω) (bytes : Array UInt8) : Except IoError Unit × Buffered ω :=
  let spare := capacity - s.buffer.size
  if bytes.size < spare then (.ok (), { s with buffer := s.buffer ++ bytes })
  else if spare < bytes.size then
    match s.flushBuffer with
    | (.error e, s) => (.error e, s)
    | (.ok (), s) => s.writeBehind bytes
  else s.writeBehind bytes

instance : Sink (Buffered ω) where
  write s text :=
    if s.error.isSome then s
    else
      match s.writeBytes text.toUTF8.data with
      | (.ok (), s) => s
      | (.error e, s) => { s with error := some e }
  failed s := s.error.isSome

/-- Takes the failure that is kept. -/
def takeError (s : Buffered ω) : Option IoError × Buffered ω := (s.error, { s with error := none })

/-- Gives the failure that is kept, or writes what is buffered and flushes the writer. -/
def flush (s : Buffered ω) : Except IoError Unit × Buffered ω :=
  match s.error with
  | some e => (.error e, { s with error := none })
  | none =>
    match s.flushBuffer with
    | (.error e, s) => (.error e, s)
    | (.ok (), s) =>
      let (result, w) := ByteWriter.flush s.writer
      (result, { s with writer := w })

/-- Gives up the sink, as it is dropped: what is still buffered is written as far as it can be. -/
def drop (s : Buffered ω) : ω := s.flushBuffer.2.writer

/-- Flushes the sink and gives back the writer (`into_inner`). -/
def finish (s : Buffered ω) : Except IoError ω :=
  match s.flush with
  | (.error e, _) => .error e
  | (.ok (), s) =>
    match s.flushBuffer with
    | (.error e, _) => .error e
    | (.ok (), s) => .ok s.writer

end Buffered

end Stencil
