import Stencil.Input.Pages
import Stencil.Input.Source
import Stencil.Text.Utf8

/-!
# Character reader with replay

A reader decodes the bytes of a source exactly once and keeps every decoded character, so that a
marked position can be read again any number of times without asking the source.  This is what lets
the body of a section be rendered once per element.

* `Reader.read`: the next character, or nothing at the end;
* `Reader.readInto`, `Reader.readMany`: several characters at once;
* `Reader.mark`, `Reader.reset`: marked positions form a stack; without a mark, `reset` goes back to
  the start;
* `Reader.close`: gives the source up; what has been decoded stays readable;
* `Feed`: all that reading a marker needs of a reader.

A failure of the source is reported and loses nothing: the next call goes on where it stood.  Bytes
that are no text are reported too, and stay in front of all that follows, so nothing behind them is
ever decoded.  Every answer of the source is noted in `heard`, the latest first.
-/

namespace Stencil

/-- A reader (`PagedReader`): the source until it ends, the answers it has given, the bytes that are
no complete character yet, the decoded characters, the position of the next character to read, and
the marked positions, the latest first. -/
structure Reader where
  source : Option Source
  heard : List Delivery
  undecoded : List UInt8
  pages : Pages
  position : Nat
  marks : List Nat

/-- What characters are read from, one after the other. -/
class Feed (φ : Type) where
  /-- The next character, or nothing at the end. -/
  next : φ → Except IoError (Option Char) × φ
  /-- An upper bound of the characters that are left. -/
  left : φ → Nat

namespace Reader

/-- The most bytes that one call asks the source for (`READ_CHUNK`). -/
def bytesPerCall : Nat := 4096

/-- A reader at the start of a source (`new`). -/
def ofSource (s : Source) : Reader :=
  { source := some (s.limitedTo bytesPerCall)
    heard := []
    undecoded := []
    pages := .empty
    position := 0
    marks := [] }

/-- The reader when its source has ended, as `fill` finds it: bytes that are left over are no
text. -/
def ended (r : Reader) : Except IoError Unit × Reader :=
  (if r.undecoded.isEmpty then .ok () else .error .invalidUtf8, { r with source := none })

/-- Decodes what more bytes complete, in `fill`. -/
def accept (r : Reader) (chunk : List UInt8) : Except IoError Unit × Reader :=
  match Utf8.decode (r.undecoded ++ chunk) with
  | some (chars, left) => (.ok (), { r with undecoded := left, pages := chars.foldl Pages.push r.pages })
  | none => (.error .invalidUtf8, { r with undecoded := r.undecoded ++ chunk })

/-- Calls the source, and again as long as it is interrupted; `deliveries` are its answers to
come. -/
def fillFrom : (deliveries : Source) → Reader → Except IoError Unit × Reader
  | [], r => { r with heard := .bytes [] :: r.heard }.ended
  | d :: rest, r =>
    let r := { r with source := some rest, heard := d :: r.heard }
    match d with
    | .failure e => if e.kind = .interrupted then fillFrom rest r else (.error e, r)
    | .bytes [] => r.ended
    | .bytes chunk => r.accept chunk

/-- Asks the source for more bytes, unless it has ended or was given up. -/
def fill (r : Reader) : Except IoError Unit × Reader :=
  match r.source with
  | none => (.ok (), r)
  | some deliveries => fillFrom deliveries r

/-- The failure to find a character in the pages that is counted there. -/
def outOfPages : IoError := .of .other "index out of bounds"

/-- Reads the next character, filling the pages at most `fuel` times. -/
def readWithin : Nat → Reader → Except IoError (Option Char) × Reader
  | 0, r => (.ok none, r)
  | fuel + 1, r =>
    if r.position < r.pages.count then
      match r.pages.get? r.position with
      | some c => (.ok (some c), { r with position := r.position + 1 })
      | none => (.error outOfPages, r)
    else
      match r.source with
      | none => (.ok none, r)
      | some _ =>
        match r.fill with
        | (.error e, r) => (.error e, r)
        | (.ok (), r) => readWithin fuel r

/-- The calls that bring a source to its end, one more for finding the end, and one for the answer
after it. -/
def callsLeft (r : Reader) : Nat :=
  match r.source with
  | some deliveries => deliveries.length + 2
  | none => 1

/-- Reads the next character, or nothing at the end. -/
def read (r : Reader) : Except IoError (Option Char) × Reader := r.readWithin r.callsLeft

/-- Reads characters into a buffer with room for `count`, and stops at the end or at a failure: the
failure, and what stands in the buffer. -/
def readUpTo : (count : Nat) → Reader → Except IoError Unit × List Char × Reader
  | 0, r => (.ok (), [], r)
  | count + 1, r =>
    match r.read with
    | (.error e, r) => (.error e, [], r)
    | (.ok none, r) => (.ok (), [], r)
    | (.ok (some c), r) =>
      let (answer, buffer, r) := readUpTo count r
      (answer, c :: buffer, r)

/-- Reads characters into a buffer with room for `count` (`read_chars`): their number, or nothing at
the end unless none are asked for; and what stands in the buffer.  A failure on the way leaves the
reader behind the characters read before it. -/
def readInto (count : Nat) (r : Reader) : Except IoError (Option Nat) × List Char × Reader :=
  if count = 0 then (.ok (some 0), [], r)
  else
    match r.readUpTo count with
    | (.error e, buffer, r) => (.error e, buffer, r)
    | (.ok (), [], r) => (.ok none, [], r)
    | (.ok (), buffer, r) => (.ok (some buffer.length), buffer, r)

/-- Reads up to `count` characters: nothing at the end, unless none are asked for. -/
def readMany (count : Nat) (r : Reader) : Except IoError (Option (List Char)) × Reader :=
  let (answer, buffer, r) := r.readInto count
  (answer.map (·.map fun _ => buffer), r)

/-- Marks the current position. -/
def mark (r : Reader) : Reader := { r with marks := r.position :: r.marks }

/-- Goes back to the latest mark and forgets it, or to the start when there is none. -/
def reset (r : Reader) : Reader :=
  match r.marks with
  | [] => { r with position := 0 }
  | p :: marks => { r with position := p, marks := marks }

/-- Gives up the source. -/
def close (r : Reader) : Reader := { r with source := none }

/-- An upper bound of the characters that can still be read without going back. -/
def charsLeft (r : Reader) : Nat :=
  r.pages.count - r.position + r.undecoded.length + (r.source.elim 0 Source.size)

instance : Feed Reader := ⟨read, charsLeft⟩

end Reader

end Stencil
