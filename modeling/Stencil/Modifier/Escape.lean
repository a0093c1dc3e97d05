import Stencil.Number.Digits

/-!
# Escaping for output formats

Each escaper makes a text safe at the place of one output format where texts stand.  An escaper goes
through the text character by character, and what it writes for a character depends on that
character alone:

* `markup`: character data and attribute values of a markup document;
* `json`: inside a JSON string literal;
* `csv`: inside a quoted field with a backslash as its escape character;
* `form`: a form-urlencoded value.

What `json` and `form` write is the documented behaviour of `serde_json` and of `form_urlencoded`.
-/

namespace Stencil.Escape

open Number

/-- Writes `< > & "` as entity references. -/
def markupChar : Char → List Char
  | '<' => "&lt;".toList
  | '>' => "&gt;".toList
  | '&' => "&amp;".toList
  | '"' => "&quot;".toList
  | c => [c]

/-- Writes a quote, a backslash and the control characters below the space as JSON escapes; five
control characters have an escape of one letter. -/
def jsonChar : Char → List Char
  | '"' => ['\\', '"']
  | '\\' => ['\\', '\\']
  | '\x08' => ['\\', 'b']
  | '\t' => ['\\', 't']
  | '\n' => ['\\', 'n']
  | '\x0c' => ['\\', 'f']
  | '\r' => ['\\', 'r']
  | c => if c.toNat < 0x20 then '\\' :: 'u' :: zeroFilled 4 (hexadecimal c.toNat) else [c]

/-- Writes a backslash in front of a quote and of a backslash. -/
def csvChar (c : Char) : List Char := if c = '"' ∨ c = '\\' then ['\\', c] else [c]

/-- Bytes that stand for themselves in a form-urlencoded value. -/
def isFormSafe (c : Char) : Bool :=
  c.isAlphanum || c = '*' || c = '-' || c = '.' || c = '_'

/-- A byte as a percent sign and two capital hexadecimal digits. -/
def percentByte (b : UInt8) : List Char :=
  '%' :: (zeroFilled 2 (hexadecimal b.toNat)).map Char.toUpper

/-- Writes a space as a plus sign, and every other character that is not safe as its UTF-8 bytes. -/
def formChar (c : Char) : List Char :=
  if isFormSafe c then [c]
  else if c = ' ' then ['+']
  else (String.utf8EncodeChar c).flatMap percentByte

/-- Applies an escaper for characters to a whole text. -/
def everyChar (escape : Char → List Char) (s : String) : String :=
  String.ofList (s.toList.flatMap escape)

/-- Replaces `< > & "` by entity references (`escape_markup`). -/
def markup : String → String := everyChar markupChar

/-- Escapes a text for the inside of a JSON string literal (`escape_json`). -/
def json : String → String := everyChar jsonChar

/-- Escapes a text for the inside of a quoted field (`escape_csv`). -/
def csv : String → String := everyChar csvChar

/-- Form-urlencodes a text (`escape_url`). -/
def form : String → String := everyChar formChar

end Stencil.Escape
