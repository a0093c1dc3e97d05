import Stencil.Input.Error

/-!
# Sources of bytes

A source is asked for bytes call after call, and may fail in between.  It is kept as the list of
what its calls give: some bytes or a failure each, and after the last one the end of the source, for
good.  An interruption is a failure after which the call is simply made again.

* `Source.ofBytes`, `Source.ofText`: a source that gives everything at its first call;
* `Source.limitedTo`: the same bytes in calls that take a limited number of them.
-/

namespace Stencil

/-- What one call to a source gives (`read`).  No bytes at all mean the end. -/
inductive Delivery where
  | bytes (chunk : List UInt8)
  | failure (e : IoError)
  deriving DecidableEq

/-- What the calls to a source give, in order; then the source is at its end. -/
abbrev Source := List Delivery

/-- Cuts a byte list into pieces of `limit` bytes, the last one possibly shorter; each piece takes
at least one of the `fuel` bytes. -/
def piecesOf (limit : Nat) : Nat → List UInt8 → List (List UInt8)
  | 0, _ => []
  | fuel + 1, bytes =>
    if bytes.isEmpty then []
    else bytes.take (limit + 1) :: piecesOf limit fuel (bytes.drop (limit + 1))

namespace Source

/-- A source that gives all its bytes at once. -/
def ofBytes (bytes : List UInt8) : Source := if bytes.isEmpty then [] else [.bytes bytes]

/-- A source of the bytes of a text. -/
def ofText (text : String) : Source := ofBytes text.toUTF8.data.toList

/-- The deliveries of one call when every call takes at most `limit + 1` bytes. -/
def split (limit : Nat) : Delivery → List Delivery
  | .bytes [] => [.bytes []]
  | .bytes chunk => (piecesOf limit chunk.length chunk).map .bytes
  | .failure e => [.failure e]

/-- The same source asked for at most `limit` bytes a call, for a positive `limit`. -/
def limitedTo (limit : Nat) (s : Source) : Source := s.flatMap (split (limit - 1))

/-- The bytes that a source still gives. -/
def size : Source → Nat
  | [] => 0
  | .bytes chunk :: rest => chunk.length + size rest
  | .failure _ :: rest => size rest

end Source

end Stencil
