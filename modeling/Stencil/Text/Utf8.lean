/-!
# Decoding UTF-8

Bytes arrive in pieces that may end inside a character, so a decoder has to tell three cases apart:
the next character is complete, it may still become complete, or no further bytes can save it.

* `Utf8.next`: the first character of a byte list, by the ranges of well-formed sequences: shortest
  form only, no surrogates, nothing above U+10FFFF;
* `Utf8.decode`: the characters of a byte list and the incomplete bytes at its end, or nothing when
  a malformed sequence occurs in it;
* `Utf8.encode`: the bytes of a text.
-/

namespace Stencil.Utf8

/-- What stands at the start of a byte list. -/
inductive Next where
  /-- A complete character, and the bytes behind it. -/
  | char (c : Char) (rest : List UInt8)
  /-- The start of a character, or nothing at all. -/
  | incomplete
  /-- Bytes that start no character. -/
  | malformed
  deriving DecidableEq

/-- Reads the last `owed` bytes of a character whose earlier bytes gave `code`.  The next byte has
to lie between `low` and `high`, the bytes behind it between 0x80 and 0xBF. -/
def tail (low high : Nat) : (owed : Nat) → (code : Nat) → List UInt8 → Next
  | 0, code, rest => .char (Char.ofNat code) rest
  | _ + 1, _, [] => .incomplete
  | owed + 1, code, b :: rest =>
    if low ≤ b.toNat ∧ b.toNat ≤ high then tail 0x80 0xBF owed (code * 64 + b.toNat % 64) rest
    else .malformed

/-- The first character of a byte list.  The first byte tells how many bytes follow, and for four
first bytes the range of the second one is narrower. -/
def next : List UInt8 → Next
  | [] => .incomplete
  | b :: rest =>
    let n := b.toNat
    if n < 0x80 then .char (Char.ofNat n) rest
    else if n < 0xC2 then .malformed
    else if n < 0xE0 then tail 0x80 0xBF 1 (n % 32) rest
    else if n < 0xF0 then
      tail (if n = 0xE0 then 0xA0 else 0x80) (if n = 0xED then 0x9F else 0xBF) 2 (n % 16) rest
    else if n < 0xF5 then
      tail (if n = 0xF0 then 0x90 else 0x80) (if n = 0xF4 then 0x8F else 0xBF) 3 (n % 8) rest
    else .malformed

/-- Decodes as far as complete characters go; a character takes at least one of the `fuel` bytes. -/
def decodeFrom : Nat → List UInt8 → Option (List Char × List UInt8)
  | 0, bytes => some ([], bytes)
  | fuel + 1, bytes =>
    match next bytes with
    | .char c rest => (decodeFrom fuel rest).map (fun (chars, left) => (c :: chars, left))
    | .incomplete => some ([], bytes)
    | .malformed => none

/-- The characters of a byte list and the incomplete bytes behind them; nothing when a malformed
sequence occurs. -/
def decode (bytes : List UInt8) : Option (List Char × List UInt8) := decodeFrom bytes.length bytes

/-- The text of a byte list, if all of it is well-formed and complete. -/
def decodeAll? (bytes : List UInt8) : Option (List Char) :=
  match decode bytes with
  | some (chars, []) => some chars
  | _ => none

/-- The bytes of a text. -/
def encode (chars : List Char) : List UInt8 := chars.flatMap String.utf8EncodeChar

end Stencil.Utf8
