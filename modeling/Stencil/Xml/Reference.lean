import Stencil.Number.Notation

/-!
# Character references

In the texts and attribute values of a document, an ampersand starts a reference that a semicolon
ends: one of five names, or a code point in decimal or hexadecimal digits.  References are resolved
as `quick-xml` documents it for `unescape`.

`Reference.resolve?` resolves all references of a text, and refuses a text with anything else behind
an ampersand.
-/

namespace Stencil.Reference

open Number

/-- The characters that have a name. -/
def named? : String → Option Char
  | "lt" => some '<'
  | "gt" => some '>'
  | "amp" => some '&'
  | "apos" => some '\''
  | "quot" => some '"'
  | _ => none

/-- The character of a code point; zero and surrogates have none. -/
def charOf? (code : Nat) : Option Char :=
  if code ≠ 0 ∧ (code < 0xD800 ∨ 0xDFFF < code ∧ code ≤ 0x10FFFF) then some (Char.ofNat code)
  else none

/-- The character of a reference, without its ampersand and semicolon. -/
def char? : List Char → Option Char
  | '#' :: 'x' :: digits => (natural? 16 digits).bind charOf?
  | '#' :: digits => (natural? 10 digits).bind charOf?
  | name => named? (String.ofList name)

/-- Resolves references; `name` holds, latest first, the characters since an ampersand. -/
def resolveFrom : Option (List Char) → List Char → Option (List Char)
  | none, [] => some []
  | some _, [] => none
  | none, c :: rest =>
    if c = '&' then resolveFrom (some []) rest else (resolveFrom none rest).map (c :: ·)
  | some name, c :: rest =>
    if c = ';' then do
      let resolved ← char? name.reverse
      (resolveFrom none rest).map (resolved :: ·)
    else if c = '&' then none
    else resolveFrom (some (c :: name)) rest

/-- Resolves all references of a text. -/
def resolve? (text : List Char) : Option (List Char) := resolveFrom none text

end Stencil.Reference
