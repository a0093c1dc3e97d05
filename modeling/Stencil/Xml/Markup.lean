import Stencil.Xml.Tag

/-!
# Pieces of a document

A document is cut into pieces: texts, start tags, empty tags, end tags, character data, and what
carries no data (comments, instructions and the document type).

This is the work of `quick-xml`, whose documented behaviour the modules `Stencil.Xml.Markup`,
`Stencil.Xml.Tag` and `Stencil.Xml.Reference` follow.  What `Element` does with the pieces is in
`Stencil.Xml.Parse`.

* `Piece.next?`: the piece at the start of a text, and what follows it;
* `Piece.ofText?`: all pieces of a document.

A tag ends at the first `>` outside of quotes; a comment, character data and an instruction end at
their closing marks, and the document type where its angle brackets balance.
-/

namespace Stencil

/-- A piece of a document. -/
inductive Piece where
  | text (s : List Char)
  | startTag (tag : List Char)
  | emptyTag (tag : List Char)
  | endTag (name : List Char)
  | characterData (s : List Char)
  | ignored
  deriving DecidableEq

namespace Piece

/-- Cuts a text at the first `>` outside of quotes; `quote` is the quote that is open. -/
def cutTag : (quote : Option Char) → List Char → Option (List Char × List Char)
  | _, [] => none
  | some q, c :: rest => do
    let (tag, rest) ← cutTag (if c = q then none else some q) rest
    pure (c :: tag, rest)
  | none, c :: rest =>
    if c = '>' then some ([], rest)
    else do
      let (tag, rest) ← cutTag (if c = '"' ∨ c = '\'' then some c else none) rest
      pure (c :: tag, rest)

/-- Cuts a text at the first place behind `before`, the latest first, where the closing mark
stands.  The mark is given latest character first as well. -/
def cutMark (mark : List Char) : (before : List Char) → List Char → Option (List Char × List Char)
  | before, s =>
    if mark.isPrefixOf before then some ((before.drop mark.length).reverse, s)
    else
      match s with
      | [] => none
      | c :: rest => cutMark mark (c :: before) rest

/-- Cuts a text at the `>` that closes the bracket open in front of it; `depth` more are open. -/
def cutBalanced : (depth : Nat) → List Char → Option (List Char × List Char)
  | _, [] => none
  | 0, '>' :: rest => some ([], rest)
  | depth + 1, '>' :: rest => (cutBalanced depth rest).map fun (s, rest) => ('>' :: s, rest)
  | depth, '<' :: rest => (cutBalanced (depth + 1) rest).map fun (s, rest) => ('<' :: s, rest)
  | depth, c :: rest => (cutBalanced depth rest).map fun (s, rest) => (c :: s, rest)

/-- A document type declaration: its name must follow. -/
def documentType? (s : List Char) : Option (Piece × List Char) := do
  let (content, rest) ← cutBalanced 0 s
  let (word, name) := (content.take 7, content.drop 7)
  if word.map Char.toUpper = "DOCTYPE".toList ∧ (Tag.skipSpaces name).isEmpty = false then
    pure (ignored, rest)
  else none

/-- What stands behind `<!`. -/
def declaration? : List Char → Option (Piece × List Char)
  | '-' :: '-' :: rest => (cutMark ['>', '-', '-'] [] rest).map fun (_, rest) => (ignored, rest)
  | '[' :: 'C' :: 'D' :: 'A' :: 'T' :: 'A' :: '[' :: rest =>
    (cutMark ['>', ']', ']'] [] rest).map fun (data, rest) => (characterData data, rest)
  | c :: rest => if c = 'D' ∨ c = 'd' then documentType? (c :: rest) else none
  | [] => none

/-- The piece of a start tag or an empty tag, from its text. -/
def ofTag (tag : List Char) : Piece :=
  match tag.reverse with
  | '/' :: rest => emptyTag rest.reverse
  | _ => startTag tag

/-- The name of an end tag, from its text; spaces behind the name do not count. -/
def endName (tag : List Char) : List Char :=
  let trimmed := (tag.reverse.dropWhile Tag.isSpace).reverse
  if trimmed.isEmpty then tag else trimmed

/-- What stands behind `<`. -/
def markup? : List Char → Option (Piece × List Char)
  | '!' :: rest => declaration? rest
  | '?' :: '>' :: _ => none
  | '?' :: rest => (cutMark ['>', '?'] [] rest).map fun (_, rest) => (ignored, rest)
  | '/' :: rest => (cutTag none rest).map fun (tag, rest) => (endTag (endName tag), rest)
  | s => (cutTag none s).map fun (tag, rest) => (ofTag tag, rest)

/-- The piece at the start of a text that is not empty, and what follows it. -/
def next? : List Char → Option (Piece × List Char)
  | '<' :: rest => markup? rest
  | s => some (text (s.takeWhile (· ≠ '<')), s.dropWhile (· ≠ '<'))

/-- The pieces of a text; each uses up at least one of the `fuel` characters. -/
def listFrom : Nat → List Char → Option (List Piece)
  | 0, _ => some []
  | _, [] => some []
  | fuel + 1, s => do
    let (piece, rest) ← next? s
    let pieces ← listFrom fuel rest
    pure (piece :: pieces)

/-- The text without a byte order mark in front. -/
def withoutMark : List Char → List Char
  | '\uFEFF' :: rest => rest
  | s => s

/-- The pieces of a document. -/
def ofText? (s : List Char) : Option (List Piece) :=
  let s := withoutMark s
  listFrom (s.length + 1) s

end Piece

end Stencil
