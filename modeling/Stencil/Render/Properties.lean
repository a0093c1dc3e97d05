import Stencil.Data.Fields
import Stencil.Number.Digits
import Stencil.Text.Cut

/-!
# Property lists

A property list is a text of keys and values, one entry a line:

* blank lines and lines that start with `#` or `!` are comments;
* a line that ends with an odd number of backslashes goes on in the next line, whose leading blanks
  are dropped;
* the key ends at the first `=`, `:` or blank without a backslash in front of it; blanks around the
  separator do not count;
* a backslash escapes the character behind it, and `\u` with a hexadecimal number writes a UTF-16
  unit; two units of a surrogate pair write one character.

`Properties.parse` reads a property list.  A key that occurs again keeps its last value.
-/

namespace Stencil

open Number Text

/-- The entries of a property list. -/
structure Properties where
  entries : List (String × String)
  deriving DecidableEq

namespace Properties

/-- The value of a key. -/
def get? (p : Properties) (key : String) : Option String := Fields.get? key p.entries

/-! ## Lines -/

/-- The line goes on in the next one (`ends_with_continuation`). -/
def isContinued (line : List Char) : Bool :=
  (line.reverse.takeWhile (· = '\\')).length % 2 = 1

/-- A line without an entry, once its leading blanks are dropped. -/
def isComment (line : List Char) : Bool :=
  match line with
  | [] => true
  | c :: _ => c = '#' || c = '!'

/-- Joins lines, as the loop of `parse` does: `current` is the text of an entry that is still going
on, if one is. -/
def joinLines : Option (List Char) → List (List Char) → List (List Char)
  | none, [] => []
  | some current, [] => [current]
  | none, line :: rest =>
    let start := trimStart line
    if isComment start then joinLines none rest
    else if isContinued start then joinLines (some start.dropLast) rest
    else start :: joinLines none rest
  | some current, line :: rest =>
    let joined := current ++ trimStart line
    if isContinued joined then joinLines (some joined.dropLast) rest
    else joined :: joinLines none rest

/-! ## Entries -/

/-- The value behind a key and a blank: one separator may follow. -/
def valueAfterBlank (rest : List Char) : List Char :=
  match trimStart rest with
  | '=' :: value => trimStart value
  | ':' :: value => trimStart value
  | value => value

/-- Cuts an entry into its key and its value, both still escaped. -/
def splitEntry : List Char → List Char × List Char
  | [] => ([], [])
  | '\\' :: c :: rest => let (key, value) := splitEntry rest; ('\\' :: c :: key, value)
  | c :: rest =>
    if c = '=' ∨ c = ':' then ([], trimStart rest)
    else if isBlank c then ([], valueAfterBlank (c :: rest))
    else let (key, value) := splitEntry rest; (c :: key, value)

/-! ## Escapes -/

/-- The number that hexadecimal digits write, with an optional plus sign in front
(`from_str_radix`). -/
def unitValue? (digits : List Char) : Option Nat :=
  let digits := match digits with
    | '+' :: d :: rest => d :: rest
    | _ => digits
  if digits.isEmpty then none
  else digits.foldlM (fun n c => (hexValue? c).map (n * 16 + ·)) 0

/-- The units that start a surrogate pair. -/
def isHighSurrogate (unit : Nat) : Bool := 0xD800 ≤ unit && unit < 0xDC00

/-- The units that end a surrogate pair. -/
def isLowSurrogate (unit : Nat) : Bool := 0xDC00 ≤ unit && unit < 0xE000

/-- The escape of a low surrogate at the start of a text: its unit, and what follows it. -/
def lowSurrogate? : List Char → Option (Nat × List Char)
  | '\\' :: 'u' :: a :: b :: c :: d :: rest =>
    (unitValue? [a, b, c, d]).bind fun unit =>
      if isLowSurrogate unit then some (unit, rest) else none
  | _ => none

/-- The character of an escape with the given unit, and what follows it.  A lone surrogate is no
character. -/
def unitChar? (unit : Nat) (rest : List Char) : Option (Char × List Char) :=
  if isHighSurrogate unit then
    (lowSurrogate? rest).map fun (low, rest) =>
      (Char.ofNat (0x10000 + (unit - 0xD800) * 0x400 + (low - 0xDC00)), rest)
  else if isLowSurrogate unit then none
  else some (Char.ofNat unit, rest)

/-- The character that a backslash and a letter other than `u` stand for. -/
def letterChar : Char → Char
  | 't' => '\t'
  | 'n' => '\n'
  | 'r' => '\r'
  | 'f' => '\x0c'
  | c => c

/-- Resolves escapes; each step uses up at least one of the `fuel` characters.  A numeric escape
that gives no character stays as it is written. -/
def unescapeFrom : Nat → List Char → List Char
  | 0, _ => []
  | _, [] => []
  | fuel + 1, '\\' :: 'u' :: rest =>
    let digits := rest.take 4
    match (unitValue? digits).bind (unitChar? · (rest.drop 4)) with
    | some (c, rest) => c :: unescapeFrom fuel rest
    | none => '\\' :: 'u' :: digits ++ unescapeFrom fuel (rest.drop 4)
  | fuel + 1, '\\' :: c :: rest => letterChar c :: unescapeFrom fuel rest
  | _ + 1, ['\\'] => []
  | fuel + 1, c :: rest => c :: unescapeFrom fuel rest

/-- The text that an escaped text stands for.  A backslash at its end stands for nothing. -/
def unescape (s : List Char) : String := String.ofList (unescapeFrom s.length s)

/-- The key and the value of an entry. -/
def parseEntry (line : List Char) : String × String :=
  let (key, value) := splitEntry line
  (unescape key, unescape value)

/-- Reads a property list. -/
def parse (text : String) : Properties :=
  ⟨Fields.ofList ((joinLines none (lines text.toList)).map parseEntry)⟩

end Properties

end Stencil
