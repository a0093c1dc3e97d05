/-!
# Places in a YAML text

Configurations are read by `serde_yaml`, whose documented behaviour the modules of `Stencil.Yaml`
follow.  What is made of the data is in `Stencil.Modifier.Configuration`.

* `isGap`, `isBreak`, `isWord`, `isFlowMark`, `isAllowed`: the classes of characters;
* `unifyBreaks`: a text whose line ends are written in one way;
* `Spot`: a place in a text, with its line and its column.
-/

namespace Stencil.Yaml

/-! ## Characters -/

/-- A space or a tab. -/
def isGap (c : Char) : Bool := c = ' ' || c = '\t'

/-- A character that ends a line, once line ends are written in one way: the line feed and the two
separators of lines and paragraphs. -/
def isBreak (c : Char) : Bool := c = '\n' || c = '\u2028' || c = '\u2029'

/-- A blank or a line end. -/
def isSpace (c : Char) : Bool := isGap c || isBreak c

/-- A character of a name: an ASCII letter, a digit, a hyphen or an underscore. -/
def isWord (c : Char) : Bool := c.isAlphanum || c = '-' || c = '_'

/-- The marks of flow nodes. -/
def isFlowMark (c : Char) : Bool := [',', '[', ']', '\x7b', '\x7d'].contains c

/-- Whether a text may hold a character at all: control characters are refused but for tabs and line
ends, and so are the last two characters of the basic plane. -/
def isAllowed (c : Char) : Bool :=
  c = '\t' || c = '\n' || c = '\r' || (' ' ≤ c && c ≤ '~') || c = '\u0085'
    || ('\u00a0' ≤ c && c ≠ '\uFFFE' && c ≠ '\uFFFF')

/-- At a blank, a line end or the end of the text. -/
def atSpace : List Char → Bool
  | [] => true
  | c :: _ => isSpace c

/-- A text whose line ends are line feeds, unless they are separators of lines or paragraphs: so are
carriage returns, with or without a line feed behind them, and the next-line character. -/
def unifyBreaks : List Char → List Char
  | [] => []
  | '\r' :: '\n' :: rest => '\n' :: unifyBreaks rest
  | c :: rest => (if c = '\r' || c = '\u0085' then '\n' else c) :: unifyBreaks rest

/-! ## Places -/

/-- A place in a text: the number of lines above it, its column in its line, and what follows. -/
structure Spot where
  line : Nat
  column : Nat
  rest : List Char

namespace Spot

/-- The start of a text. -/
def start (text : List Char) : Spot := ⟨0, 0, unifyBreaks text⟩

/-- The place behind the next character. -/
def step (s : Spot) : Spot :=
  match s.rest with
  | [] => s
  | c :: rest => if isBreak c then ⟨s.line + 1, 0, rest⟩ else ⟨s.line, s.column + 1, rest⟩

/-- The place behind some characters. -/
def skip : Nat → Spot → Spot
  | 0, s => s
  | n + 1, s => skip n s.step

/-- The characters of a class that come next, and the place behind them. -/
def span (p : Char → Bool) (s : Spot) : List Char × Spot :=
  let passed := s.rest.takeWhile p
  (passed, s.skip passed.length)

/-- The place behind the characters of a class that come next. -/
def skipWhile (p : Char → Bool) (s : Spot) : Spot := (s.span p).2

/-- The place in front of a rest of the text. -/
def moveTo (rest : List Char) (s : Spot) : Spot := s.skip (s.rest.length - rest.length)

/-- At a certain character. -/
def at? (c : Char) (s : Spot) : Bool := s.rest.head? == some c

/-- At the end of the text. -/
def atEnd (s : Spot) : Bool := s.rest.isEmpty

/-- At the end of a line or of the text. -/
def atLineEnd (s : Spot) : Bool := s.rest.head?.all isBreak

/-- At three marks of a kind alone at the start of a line. -/
def atRule (mark : Char) (s : Spot) : Bool :=
  s.column = 0 && s.rest.take 3 = [mark, mark, mark] && atSpace (s.rest.drop 3)

/-- At the mark of the start or the end of a document. -/
def atDocumentMark (s : Spot) : Bool := s.atRule '-' || s.atRule '.'

/-- Passes over the rest of a line in which nothing follows but a comment, and over its end. -/
def skipLine? (s : Spot) : Option Spot :=
  let s := s.skipWhile isGap
  let s := if s.at? '#' then s.skipWhile (!isBreak ·) else s
  if s.atLineEnd then some s.step else none

end Spot

end Stencil.Yaml
