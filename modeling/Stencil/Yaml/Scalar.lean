import Stencil.Number.Digits
import Stencil.Yaml.Spot

/-!
# YAML scalars

The readers of single texts, as `serde_yaml` reads them.  Each gives the text that it has read and
the place behind it.

* `singleQuoted?`, `doubleQuoted?`: texts in quotes;
* `plain?`: texts without quotes, which end in front of certain marks;
* `block?`: texts whose indented lines follow the marks `|` or `>`.

Within the first three a run of blanks and line ends is a `joint`: a single line end counts as a
space, and empty lines behind it for one line end each.
-/

namespace Stencil.Yaml

open Number

/-! ## Folding -/

/-- What line ends in a row stand for: a single one for a space, and of several the first goes.
Separators of lines and paragraphs in front stay. -/
def folded : List Char → List Char
  | ['\n'] => [' ']
  | '\n' :: breaks => breaks
  | breaks => breaks

/-- What a run of blanks and line ends within a text stands for: blanks at the ends of lines do not
count. -/
def joint (run : List Char) : List Char :=
  let breaks := run.filter isBreak
  if breaks.isEmpty then run else folded breaks

/-- Puts a text in front of what has been read. -/
def prepend (text : List Char) (read : List Char × Spot) : List Char × Spot :=
  (text ++ read.1, read.2)

/-! ## Quotes -/

/-- Reads behind a single quote up to the closing one.  No mark of a document may stand at the start
of a line.  Each step uses up at least one of the `fuel` characters. -/
def singleQuoted? : Nat → Spot → Option (List Char × Spot)
  | 0, _ => none
  | fuel + 1, s =>
    match s.rest with
    | [] => none
    | '\'' :: '\'' :: _ => (singleQuoted? fuel (s.skip 2)).map (prepend ['\''])
    | '\'' :: _ => some ([], s.step)
    | c :: _ =>
      if isSpace c then
        let (run, there) := s.span isSpace
        if there.atDocumentMark then none
        else (singleQuoted? fuel there).map (prepend (joint run))
      else (singleQuoted? fuel s.step).map (prepend [c])

/-- The character that an escape with one letter stands for. -/
def escapedChar? : Char → Option Char
  | '0' => some '\x00'
  | 'a' => some '\x07'
  | 'b' => some '\x08'
  | 't' => some '\t'
  | '\t' => some '\t'
  | 'n' => some '\n'
  | 'v' => some '\x0b'
  | 'f' => some '\x0c'
  | 'r' => some '\r'
  | 'e' => some '\x1b'
  | ' ' => some ' '
  | '"' => some '"'
  | '/' => some '/'
  | '\\' => some '\\'
  | 'N' => some '\u0085'
  | '_' => some '\u00a0'
  | 'L' => some '\u2028'
  | 'P' => some '\u2029'
  | _ => none

/-- The number of hexadecimal digits behind the letter of an escape. -/
def escapeWidth? : Char → Option Nat
  | 'x' => some 2
  | 'u' => some 4
  | 'U' => some 8
  | _ => none

/-- The character with the code point that hexadecimal digits write. -/
def codePoint? (digits : List Char) : Option Char := do
  let code ← digits.foldlM (fun n c => (hexValue? c).map (n * 16 + ·)) 0
  if code < 0xD800 ∨ (0xDFFF < code ∧ code ≤ 0x10FFFF) then some (Char.ofNat code) else none

/-- The character of the escape whose letter comes first, and the number of characters that write
it. -/
def escape? : List Char → Option (Char × Nat)
  | [] => none
  | c :: rest =>
    match escapedChar? c, escapeWidth? c with
    | some e, _ => some (e, 1)
    | none, some width =>
      if rest.length < width then none
      else (codePoint? (rest.take width)).map fun e => (e, width + 1)
    | none, none => none

/-- Reads behind a double quote up to the closing one.  Behind a line end with a backslash in front
of it the further line ends all count.  No mark of a document may stand at the start of a line.  Each
step uses up at least one of the `fuel` characters. -/
def doubleQuoted? : Nat → Spot → Option (List Char × Spot)
  | 0, _ => none
  | fuel + 1, s =>
    match s.rest with
    | [] => none
    | '"' :: _ => some ([], s.step)
    | '\\' :: rest =>
      if rest.head?.any isBreak then
        let (run, there) := (s.skip 2).span isSpace
        if there.atDocumentMark then none
        else (doubleQuoted? fuel there).map (prepend (run.filter isBreak))
      else do
        let (e, width) ← escape? rest
        (doubleQuoted? fuel (s.skip (width + 1))).map (prepend [e])
    | c :: _ =>
      if isSpace c then
        let (run, there) := s.span isSpace
        if there.atDocumentMark then none
        else (doubleQuoted? fuel there).map (prepend (joint run))
      else (doubleQuoted? fuel s.step).map (prepend [c])

/-! ## Plain scalars -/

/-- Whether a plain scalar can start here. -/
def startsPlain (flow : Bool) : List Char → Bool
  | [] => false
  | c :: rest =>
    if c = '-' then !atSpace rest
    else if c = '?' || c = ':' then !flow && !atSpace rest
    else !isSpace c && !isFlowMark c
      && !(['#', '&', '*', '!', '|', '>', '\'', '"', '%', '@', '\x60'].contains c)

/-- The word of a plain scalar that comes next, up to a blank or a line end.  It ends in front of a
colon with a gap behind it, and inside brackets at their marks; there a colon may not stand in front
of a mark. -/
def plainWord? (flow : Bool) : List Char → Option (List Char)
  | [] => some []
  | c :: rest =>
    if isSpace c || (c = ':' && atSpace rest) || (flow && isFlowMark c) then some []
    else if flow && c = ':' && rest.head?.any (fun d => isFlowMark d || d = '?') then none
    else (plainWord? flow rest).map (c :: ·)

/-- No tab stands in front of the margin at the start of a line. -/
def tabsFit (margin : Nat) : (column : Option Nat) → List Char → Bool
  | _, [] => true
  | column, c :: rest =>
    if isBreak c then tabsFit margin (some 0) rest
    else !(c = '\t' && column.any (· < margin)) && tabsFit margin (column.map (· + 1)) rest

/-- Reads a plain scalar whose further lines start behind the margin: its text, the place of what
comes next, and whether a line ends in front of that.  A comment or the mark of a document ends it.
Each word uses up at least one of the `fuel` characters. -/
def plain? (flow : Bool) (margin : Nat) : Nat → Spot → Option (List Char × Spot × Bool)
  | 0, s => some ([], s, false)
  | fuel + 1, s =>
    if s.atDocumentMark || s.at? '#' then some ([], s, false)
    else do
      let word ← plainWord? flow s.rest
      let (run, there) := (s.skip word.length).span isSpace
      if run.isEmpty then some (word, there, false)
      else if !tabsFit margin none run then none
      else if !flow && there.column < margin then some (word, there, run.any isBreak)
      else do
        let (text, behind, broken) ← plain? flow margin fuel there
        if text.isEmpty then some (word, behind, run.any isBreak)
        else some (word ++ joint run ++ text, behind, broken)

/-! ## Blocks -/

/-- What is done with the line ends behind a block. -/
inductive Chomp where
  | clip
  | strip
  | keep
  deriving DecidableEq

/-- How a block is written: folded or not, what is done with its end, and its indentation within
the node around it if it is given. -/
structure BlockStyle where
  fold : Bool
  chomp : Chomp
  indent : Option Nat

/-- Reads the sign of a block, which may be missing. -/
def chompSign : List Char → Chomp × List Char
  | '+' :: rest => (.keep, rest)
  | '-' :: rest => (.strip, rest)
  | s => (.clip, s)

/-- Reads the digit of a block, which may be missing but not be zero. -/
def indentDigit? : List Char → Option (Option Nat × List Char)
  | [] => some (none, [])
  | c :: rest =>
    match digitValue? c with
    | some 0 => none
    | some n => some (some n, rest)
    | none => some (none, c :: rest)

/-- Reads the marks behind `|` or `>`: a sign and a digit in any order. -/
def blockStyle? (fold : Bool) (s : List Char) : Option (BlockStyle × List Char) :=
  match chompSign s with
  | (.clip, _) => do
    let (indent, rest) ← indentDigit? s
    let (chomp, rest) := if indent.isSome then chompSign rest else (.clip, rest)
    pure (⟨fold, chomp, indent⟩, rest)
  | (chomp, rest) => do
    let (indent, rest) ← indentDigit? rest
    pure (⟨fold, chomp, indent⟩, rest)

/-- Passes over empty lines and the indentation of the next line, of at most `indent` spaces unless
that is zero: the line ends, the place there, and the largest number of spaces in front of anything.
A tab is no indentation. -/
def blockGap? (indent widest line column : Nat) : List Char → Option (List Char × Spot × Nat)
  | [] => some ([], ⟨line, column, []⟩, max widest column)
  | c :: rest =>
    let within := indent = 0 || column < indent
    if within && c = ' ' then blockGap? indent widest line (column + 1) rest
    else if within && c = '\t' then none
    else if isBreak c then
      (blockGap? indent (max widest column) (line + 1) 0 rest).map fun (breaks, there) =>
        (c :: breaks, there)
    else some ([], ⟨line, column, c :: rest⟩, max widest column)

/-- What stands between two lines of a block: the end of the first one, and empty lines.  In a folded
block a line end between lines that do not start with a blank counts as a space. -/
def blockJoint (fold : Bool) (ending empty : List Char) : List Char :=
  if fold && ending = ['\n'] then (if empty.isEmpty then [' '] else empty) else ending ++ empty

/-- Reads the lines of a block from one on; `ending` and `empty` are the line ends in front of it,
and `blank` tells whether the line above starts with a blank.  Each line uses up at least one of the
`fuel` characters. -/
def blockLines? (style : BlockStyle) (indent : Nat) :
    Nat → (ending empty : List Char) → (blank : Bool) → Spot → Option (List Char × Spot)
  | 0, _, _, _, _ => none
  | fuel + 1, ending, empty, blank, s =>
    if s.column = indent && !s.atEnd then do
      let starts := s.rest.head?.any isGap
      let (line, there) := s.span (!isBreak ·)
      let (empty', below, _) ← blockGap? indent 0 there.step.line there.step.column there.step.rest
      let read ← blockLines? style indent fuel (there.rest.take 1) empty' starts below
      pure (prepend (blockJoint (style.fold && !blank && !starts) ending empty ++ line) read)
    else
      match style.chomp with
      | .strip => some ([], s)
      | .clip => some (ending, s)
      | .keep => some (ending ++ empty, s)

/-- Reads a block at one of its marks; its lines start behind the margin. -/
def block? (margin : Nat) (s : Spot) : Option (List Char × Spot) := do
  let (style, rest) ← blockStyle? (s.at? '>') s.rest.tail
  let s ← (s.moveTo rest).skipLine?
  let given := (style.indent.map (margin - 1 + ·)).getD 0
  let (empty, there, widest) ← blockGap? given 0 s.line s.column s.rest
  let indent := if given = 0 then max (max widest margin) 1 else given
  blockLines? style indent (there.rest.length + 1) [] empty false there

end Stencil.Yaml
