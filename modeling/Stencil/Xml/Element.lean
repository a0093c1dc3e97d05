/-!
# XML elements

An element has a name, attributes and, in document order, texts and further elements.

* `Element.text`: all texts in an element, joined;
* `Element.named`: the elements of a name at any depth below an element, in document order.
-/

namespace Stencil

/-- A piece of the content of an element (`Node`). -/
inductive Content where
  | text (s : String)
  | element (name : String) (attributes : List (String × String)) (content : List Content)

/-- An element. -/
structure Element where
  name : String
  attributes : List (String × String)
  content : List Content

/-- An element as content of another one. -/
def Element.asContent (e : Element) : Content := .element e.name e.attributes e.content

mutual

/-- The texts in a piece of content, joined (`collect_text`). -/
def Content.textOf : Content → String
  | .text s => s
  | .element _ _ content => Content.textOfAll content

/-- The texts in pieces of content, joined. -/
def Content.textOfAll : List Content → String
  | [] => ""
  | n :: rest => Content.textOf n ++ Content.textOfAll rest

end

mutual

/-- The elements of a name in a piece of content, outer ones before those in them
(`collect_named`). -/
def Content.namedIn (name : String) : Content → List Element
  | .text _ => []
  | .element n attributes content =>
    let below := Content.namedInAll name content
    if n = name then ⟨n, attributes, content⟩ :: below else below

/-- The elements of a name in pieces of content. -/
def Content.namedInAll (name : String) : List Content → List Element
  | [] => []
  | n :: rest => Content.namedIn name n ++ Content.namedInAll name rest

end

namespace Element

/-- All texts in an element, joined (`text_content`). -/
def text (e : Element) : String := Content.textOfAll e.content

/-- The elements of a name below an element, in document order (`descendants_named`). -/
def named (e : Element) (name : String) : List Element := Content.namedInAll name e.content

/-- The elements directly in an element. -/
def children (e : Element) : List Element :=
  e.content.filterMap fun
    | .text _ => none
    | .element name attributes content => some ⟨name, attributes, content⟩

/-- The value of an attribute. -/
def attribute? (e : Element) (name : String) : Option String := e.attributes.lookup name

end Element

end Stencil
