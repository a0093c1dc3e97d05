import Stencil.Number.Digits
import Stencil.Text.Hidden

/-!
# Quoted texts

The form of a text in diagnostic output: between double quotes, with escapes for quotes,
backslashes, line ends, tabs, zero, and every character that does not show by itself, which is
written as its code point in braces.
-/

namespace Stencil.Text

open Number

/-- The form of a character in a quoted text. -/
def quotedChar (c : Char) : List Char :=
  match c with
  | '\x00' => ['\\', '0']
  | '\t' => ['\\', 't']
  | '\r' => ['\\', 'r']
  | '\n' => ['\\', 'n']
  | '"' => ['\\', '"']
  | '\\' => ['\\', '\\']
  | c => if isHidden c then "\\u\x7b".toList ++ hexadecimal c.toNat ++ ['}'] else [c]

/-- A text between quotes. -/
def quoted (s : String) : String := String.ofList ('"' :: (s.toList.flatMap quotedChar ++ ['"']))

/-- Quoted texts between brackets. -/
def quotedList (texts : List String) : String :=
  "[" ++ String.intercalate ", " (texts.map quoted) ++ "]"

end Stencil.Text
