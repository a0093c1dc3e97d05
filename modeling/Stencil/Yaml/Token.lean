import Stencil.Yaml.Scalar
import Stencil.Yaml.Tag

/-!
# YAML tokens

The tokens of a YAML text are its marks and its scalars, and the starts and ends of the blocks that
its indentation forms.  A key needs no mark in front of it: that something was a key shows only at
the colon behind it, so a scan remembers where a key may have started and puts its mark there later.
The tokens are those of the scanner of `serde_yaml`.

* `Token`: what a text consists of;
* `Scan`: the state of a scan, with one function for each kind of token;
* `Token.ofText?`: the tokens of a text.
-/

namespace Stencil.Yaml

open Number

/-- What a text consists of. -/
inductive Token where
  /-- The directive of a version. -/
  | version (major minor : Nat)
  /-- The directive of a handle. -/
  | handle (handle : Handle)
  /-- The mark of the start of a document. -/
  | documentStart
  /-- The mark of the end of a document. -/
  | documentEnd
  /-- The start of a list of items in lines of their own. -/
  | blockList
  /-- The start of a map of entries in lines of their own. -/
  | blockMap
  /-- The end of such a list or map. -/
  | blockEnd
  | flowList
  | flowListEnd
  | flowMap
  | flowMapEnd
  | comma
  /-- The mark of an item. -/
  | item
  /-- The mark of a key, or its place. -/
  | key
  /-- The mark of a value. -/
  | value
  /-- The name of a node that stands elsewhere. -/
  | reference (name : String)
  /-- A name for the node that follows. -/
  | anchor (name : String)
  | tag (tag : ShortTag)
  | scalar (plain : Bool) (text : String)

/-- A place where a key without a mark may have started: behind `position` tokens.  It is required
where nothing but a key can stand. -/
structure Candidate where
  line : Nat
  column : Nat
  position : Nat
  required : Bool

/-- The state of a scan: its place, the tokens that it has found, the latest first, the columns of
the blocks around its place, the innermost first, the last candidate for a key and those outside of
the brackets around its place, and whether a key without a mark may start. -/
structure Scan where
  spot : Spot
  found : List Token
  blocks : List Nat
  candidate : Option Candidate
  outer : List (Option Candidate)
  keyAllowed : Bool

namespace Scan

/-- The start of a scan. -/
def start (text : List Char) : Scan := ⟨Spot.start text, [], [], none, [], true⟩

/-- Inside brackets or braces. -/
def inFlow (s : Scan) : Bool := !s.outer.isEmpty

/-- The first column behind the innermost block. -/
def margin (s : Scan) : Nat :=
  match s.blocks with
  | [] => 0
  | column :: _ => column + 1

/-- Adds a token of some characters; `keyAllowed` tells whether a key may start behind it. -/
def emit (token : Token) (width : Nat) (keyAllowed : Bool) (s : Scan) : Scan :=
  { s with found := token :: s.found, spot := s.spot.skip width, keyAllowed := keyAllowed }

/-- Adds a token that has been read up to a place. -/
def emitTo (token : Token) (spot : Spot) (keyAllowed : Bool) (s : Scan) : Scan :=
  { s with found := token :: s.found, spot := spot, keyAllowed := keyAllowed }

/-- Puts a token behind some others. -/
def insert (token : Token) (position : Nat) (s : Scan) : Scan :=
  let later := s.found.length - position
  { s with found := s.found.take later ++ token :: s.found.drop later }

/-! ## Keys -/

/-- Gives up the candidate, unless it is required. -/
def forget? (s : Scan) : Option Scan :=
  if s.candidate.any (·.required) then none else some { s with candidate := none }

/-- Whether a candidate is too far away: a key has a single line, and at most 1024 characters. -/
def isLate (s : Scan) (key : Candidate) : Bool :=
  key.line < s.spot.line || key.column + 1024 < s.spot.column

/-- Gives up the candidates that are too far away, none of which may be required. -/
def expire? (s : Scan) : Option Scan :=
  if (s.candidate :: s.outer).any (·.any fun key => s.isLate key && key.required) then none
  else
    some { s with
      candidate := s.candidate.filter (!s.isLate ·)
      outer := s.outer.map (·.filter (!s.isLate ·)) }

/-- Remembers that a key may start here, if one may.  In the column of a block it has to. -/
def remember? (s : Scan) : Option Scan :=
  if s.keyAllowed then do
    let s ← s.forget?
    let required := !s.inFlow && s.blocks.head? == some s.spot.column
    pure { s with candidate := some ⟨s.spot.line, s.spot.column, s.found.length, required⟩ }
  else some s

/-! ## Blocks -/

/-- Starts a block behind some tokens, if it is indented more than the block around it. -/
def openBlock (token : Token) (column position : Nat) (s : Scan) : Scan :=
  if s.inFlow || column < s.margin then s
  else { s.insert token position with blocks := column :: s.blocks }

/-- Ends the blocks that start in a column or behind it. -/
def closeBlocks (column : Nat) (s : Scan) : Scan :=
  if s.inFlow then s
  else
    let left := s.blocks.dropWhile (column ≤ ·)
    let closed := s.blocks.length - left.length
    { s with found := List.replicate closed .blockEnd ++ s.found, blocks := left }

/-! ## Gaps -/

/-- Passes over blanks, line ends and comments.  A tab may not stand where a key may start, unless
inside brackets.  Outside of them a key may start in every new line.  A byte order mark at the start
of a line counts as a blank. -/
def gap (flow keyAllowed comment : Bool) (line column : Nat) : List Char → Spot × Bool
  | [] => (⟨line, column, []⟩, keyAllowed)
  | c :: rest =>
    if isBreak c then gap flow (keyAllowed || !flow) false (line + 1) 0 rest
    else if comment || c = ' ' || c = '#' || (c = '\t' && (flow || !keyAllowed))
        || (c = '\uFEFF' && column = 0) then
      gap flow keyAllowed (comment || c = '#') line (column + 1) rest
    else (⟨line, column, c :: rest⟩, keyAllowed)

/-- The scan at what comes next. -/
def skipGap (s : Scan) : Scan :=
  let (spot, keyAllowed) :=
    gap s.inFlow s.keyAllowed false s.spot.line s.spot.column s.spot.rest
  { s with spot := spot, keyAllowed := keyAllowed }

/-! ## Directives and documents -/

/-- Ends all blocks in front of a directive or the mark of a document. -/
def leave? (s : Scan) : Option Scan := (s.closeBlocks 0).forget?

/-- Reads a part of a version, of at most nine digits. -/
def versionPart? (s : List Char) : Option (Nat × List Char) :=
  let digits := s.takeWhile Char.isDigit
  if digits.isEmpty || 9 < digits.length then none
  else some (digits.foldl (fun n c => n * 10 + (c.toNat - '0'.toNat)) 0, s.dropWhile Char.isDigit)

/-- Reads a version, with blanks in front of it. -/
def version? (s : List Char) : Option (Token × List Char) := do
  let (major, rest) ← versionPart? (s.dropWhile isGap)
  match rest with
  | '.' :: rest => do
    let (minor, rest) ← versionPart? rest
    pure (.version major minor, rest)
  | _ => none

/-- Reads a directive behind its mark. -/
def directiveToken? (s : List Char) : Option (Token × List Char) := do
  let name := s.takeWhile isWord
  let rest := s.dropWhile isWord
  if !atSpace rest then none
  if name = ['Y', 'A', 'M', 'L'] then version? rest
  else if name = ['T', 'A', 'G'] then (Handle.read? rest).map fun (handle, rest) => (.handle handle, rest)
  else none

/-- Scans a directive. -/
def directive? (s : Scan) : Option Scan := do
  let s ← s.leave?
  let (token, rest) ← directiveToken? s.spot.rest.tail
  pure (s.emitTo token (← (s.spot.moveTo rest).skipLine?) false)

/-- Scans the mark of a document. -/
def rule? (token : Token) (s : Scan) : Option Scan := s.leave?.map (·.emit token 3 false)

/-! ## Marks -/

/-- Scans an opening bracket or brace. -/
def openFlow? (token : Token) (s : Scan) : Option Scan := do
  let s ← s.remember?
  pure ({ s with candidate := none, outer := s.candidate :: s.outer }.emit token 1 true)

/-- Scans a closing bracket or brace. -/
def closeFlow? (token : Token) (s : Scan) : Option Scan := do
  let s ← s.forget?
  let s := match s.outer with
    | [] => s
    | candidate :: outer => { s with candidate := candidate, outer := outer }
  pure (s.emit token 1 false)

/-- Scans a comma. -/
def comma? (s : Scan) : Option Scan := s.forget?.map (·.emit .comma 1 true)

/-- Scans the mark of an item. -/
def item? (s : Scan) : Option Scan :=
  if !s.inFlow && !s.keyAllowed then none
  else (s.openBlock .blockList s.spot.column s.found.length).forget?.map (·.emit .item 1 true)

/-- Scans the mark of a key. -/
def key? (s : Scan) : Option Scan :=
  if !s.inFlow && !s.keyAllowed then none
  else (s.openBlock .blockMap s.spot.column s.found.length).forget?.map (·.emit .key 1 (!s.inFlow))

/-- Scans the mark of a value.  If there is a candidate, it is the key of the value. -/
def value? (s : Scan) : Option Scan :=
  match s.candidate with
  | some key =>
    let s := (s.insert .key key.position).openBlock .blockMap key.column key.position
    some ({ s with candidate := none }.emit .value 1 false)
  | none =>
    if !s.inFlow && !s.keyAllowed then none
    else some ((s.openBlock .blockMap s.spot.column s.found.length).emit .value 1 (!s.inFlow))

/-! ## Scalars and what stands in front of them -/

/-- Scans a name behind its mark. -/
def name? (token : String → Token) (s : Scan) : Option Scan := do
  let s ← s.remember?
  let (name, there) := s.spot.step.span isWord
  let ends (c : Char) : Bool := isSpace c || ['?', ':', ',', ']', '\x7d', '%', '@', '\x60'].contains c
  if !name.isEmpty && there.rest.head?.all ends then
    some (s.emitTo (token (String.ofList name)) there false)
  else none

/-- Scans a tag. -/
def tag? (s : Scan) : Option Scan := do
  let s ← s.remember?
  let (tag, rest) ← ShortTag.read? s.inFlow s.spot.rest
  pure (s.emitTo (.tag tag) (s.spot.moveTo rest) false)

/-- Scans a block scalar. -/
def block? (s : Scan) : Option Scan := do
  let s ← s.forget?
  let (text, there) ← Yaml.block? s.margin s.spot
  pure (s.emitTo (.scalar false (String.ofList text)) there true)

/-- Scans a text in quotes with one of their readers. -/
def quoted? (read : Nat → Spot → Option (List Char × Spot)) (s : Scan) : Option Scan := do
  let s ← s.remember?
  let (text, there) ← read s.spot.rest.length s.spot.step
  pure (s.emitTo (.scalar false (String.ofList text)) there false)

/-- Scans a plain scalar.  Behind a line end a key may start. -/
def plain? (s : Scan) : Option Scan := do
  let s ← s.remember?
  let (text, there, broken) ← Yaml.plain? s.inFlow s.margin s.spot.rest.length s.spot
  pure (s.emitTo (.scalar true (String.ofList text)) there broken)

/-! ## Scans -/

/-- Scans the token at the place of a scan. -/
def next? (s : Scan) : Option Scan :=
  match s.spot.rest with
  | [] => none
  | c :: rest =>
    let flow := s.inFlow
    if s.spot.column = 0 && c = '%' then s.directive?
    else if s.spot.atRule '-' then s.rule? .documentStart
    else if s.spot.atRule '.' then s.rule? .documentEnd
    else if c = '[' then s.openFlow? .flowList
    else if c = '\x7b' then s.openFlow? .flowMap
    else if c = ']' then s.closeFlow? .flowListEnd
    else if c = '\x7d' then s.closeFlow? .flowMapEnd
    else if c = ',' then s.comma?
    else if c = '-' && atSpace rest then s.item?
    else if c = '?' && (flow || atSpace rest) then s.key?
    else if c = ':' && (flow || atSpace rest) then s.value?
    else if c = '*' then s.name? .reference
    else if c = '&' then s.name? .anchor
    else if c = '!' then s.tag?
    else if (c = '|' || c = '>') && !flow then s.block?
    else if c = '\'' then s.quoted? singleQuoted?
    else if c = '"' then s.quoted? doubleQuoted?
    else if startsPlain flow s.spot.rest then s.plain?
    else none

/-- Scans up to the end of the text; each token uses up at least one of the `fuel` characters. -/
def finish? : Nat → Scan → Option (List Token)
  | 0, _ => none
  | fuel + 1, s => do
    let s ← s.skipGap.expire?
    if s.spot.atEnd then s.leave?.map (·.found.reverse)
    else (← (s.closeBlocks (s.spot.column + 1)).next?).finish? fuel

end Scan

/-- The tokens of a text. -/
def Token.ofText? (text : String) : Option (List Token) :=
  let chars := text.toList
  if chars.all isAllowed then (Scan.start chars).finish? (chars.length + 1) else none

end Stencil.Yaml
