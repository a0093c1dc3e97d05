import Stencil.Data.Error
import Stencil.Text.Cut
import Stencil.Xml.Element
import Stencil.Xml.Markup

/-!
# Reading XML documents

The pieces of a document are put together from left to right.  `Build` holds what has been read: the
elements that are open, the innermost first, and the first element that was closed with none around
it, which is the root of the document.

* `Build.add?`: takes one more piece;
* `Element.parse`: the root of a document.

Texts of blanks alone are dropped, but character data never is.  The pieces come from `quick-xml`
(`Stencil.Xml.Markup`); all that is made of them here is `parse` of `Element`.
-/

namespace Stencil

/-- An element that is still open, with the latest piece of its content first. -/
structure OpenElement where
  name : String
  attributes : List (String × String)
  content : List Content

/-- The element when its end tag has come. -/
def OpenElement.close (e : OpenElement) : Element := ⟨e.name, e.attributes, e.content.reverse⟩

/-- What has been read of a document: the variables of `parse`. -/
structure Build where
  opened : List OpenElement
  root : Option Element

namespace Build

/-- Nothing has been read. -/
def empty : Build := ⟨[], none⟩

/-- Adds a piece of content to the innermost open element; outside of all, it is dropped. -/
def addContent (b : Build) (piece : Content) : Build :=
  match b.opened with
  | [] => b
  | e :: rest => { b with opened := { e with content := piece :: e.content } :: rest }

/-- Adds a complete element (`attach`). -/
def addElement (b : Build) (e : Element) : Build :=
  if b.opened.isEmpty then { b with root := b.root.or (some e) } else b.addContent e.asContent

/-- The element of a start tag or an empty tag (`from_start`). -/
def open? (tag : List Char) : Option OpenElement :=
  (Tag.attributes? tag).map fun attributes => ⟨String.ofList (Tag.name tag), attributes, []⟩

/-- Adds one more piece, if it is well formed in its place: one round of `parse`. -/
def add? (b : Build) : Piece → Option Build
  | .startTag tag => (open? tag).map fun e => { b with opened := e :: b.opened }
  | .emptyTag tag => (open? tag).map fun e => b.addElement e.close
  | .endTag name =>
    match b.opened with
    | [] => none
    | e :: rest =>
      if e.name = String.ofList name then some ({ b with opened := rest }.addElement e.close)
      else none
  | .text raw => (Reference.resolve? raw).map fun text =>
      if (Text.trim text).isEmpty then b else b.addContent (.text (String.ofList text))
  | .characterData data => some (b.addContent (.text (String.ofList data)))
  | .ignored => some b

/-- The root of a document that has been read to its end. -/
def finish (b : Build) : Except DataError Element :=
  match b.opened with
  | e :: _ => .error (.xml (.unclosed e.name))
  | [] =>
    match b.root with
    | some root => .ok root
    | none => .error (.xml .noRoot)

end Build

/-- The root of a document. -/
def Element.parse (text : String) : Except DataError Element :=
  match (Piece.ofText? text.toList).bind (List.foldlM Build.add? Build.empty) with
  | some b => b.finish
  | none => .error (.xml (.malformed "not well-formed"))

end Stencil
