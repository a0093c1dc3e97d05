import Stencil.Locale.Basic
import Stencil.Render.Loader
import Stencil.Render.Properties
import Stencil.Text.Utf8

/-!
# Text bundles

The texts of a template in one language stand in property lists next to it: for the base name
`page` and the locale `en-GB` in `page_en_GB.properties`, `page_en.properties` and
`page.properties`.  A bundle is the chain of those that exist, the most specific first, so that a
regional list only holds what differs.

* `Bundle.get?`: the text of a key, from the first list that has it;
* `Source.readText`: all of a source as a text;
* `Shelf`: a loader that notes what has been opened, and keeps the bundles found before.
-/

namespace Stencil

/-- Property lists, searched in order (`BundleChain`). -/
structure Bundle where
  layers : List Properties
  deriving DecidableEq

/-- The text of a key. -/
def Bundle.get? (b : Bundle) (key : String) : Option String :=
  b.layers.findSome? (fun layer => layer.get? key)

/-- The bytes of a source up to its end, or its first failure that is no interruption. -/
def Source.readBytes : Source → Except IoError (List UInt8)
  | [] => .ok []
  | .bytes [] :: _ => .ok []
  | .bytes chunk :: rest => (readBytes rest).map (chunk ++ ·)
  | .failure e :: rest => if e.kind = .interrupted then readBytes rest else .error e

/-- The text of a source (`from_reader`).  A failure of the source comes before bytes that are no
text. -/
def Source.readText (s : Source) : Except IoError String := do
  match Utf8.decodeAll? (← s.readBytes) with
  | some chars => .ok (String.ofList chars)
  | none => .error .invalidUtf8

/-- A loader in use, with what a `TemplateSerializer` keeps between renders: the names opened so
far, the latest first, and the bundles looked up so far, also those that were not found
(`bundles`). -/
structure Shelf where
  loader : Loader
  opened : List String
  bundles : List (Locale × Option Bundle)

namespace Shelf

/-- A loader before its first use. -/
def ofLoader (loader : Loader) : Shelf := ⟨loader, [], []⟩

/-- Opens a resource and notes it when it is there (`open`). -/
def openNamed (s : Shelf) (name : String) : Except IoError Source × Shelf :=
  match s.loader.openNamed name with
  | .ok source => (.ok source, { s with opened := name :: s.opened })
  | .error e => (.error e, s)

/-- How often a resource has been opened. -/
def openCount (s : Shelf) (name : String) : Nat :=
  if s.loader.countsOpens then s.opened.count name else 0

/-- Reads those of the named property lists that exist. -/
def readLayers : List String → Shelf → Except IoError (List Properties) × Shelf
  | [], s => (.ok [], s)
  | name :: rest, s =>
    match s.openNamed name with
    | (.error e, s) => if e.kind = .notFound then readLayers rest s else (.error e, s)
    | (.ok source, s) =>
      match source.readText with
      | .error e => (.error e, s)
      | .ok text =>
        match readLayers rest s with
        | (.ok layers, s) => (.ok (Properties.parse text :: layers), s)
        | (.error e, s) => (.error e, s)

/-- Reads the bundle of a base name, if any of its property lists exists (`load`). -/
def readBundle (s : Shelf) (base : String) (locale : Locale) :
    Except IoError (Option Bundle) × Shelf :=
  let names := locale.bundleSuffixes.map (fun suffix => base ++ suffix ++ ".properties")
  match readLayers names s with
  | (.ok [], s) => (.ok none, s)
  | (.ok layers, s) => (.ok (some ⟨layers⟩), s)
  | (.error e, s) => (.error e, s)

/-- The bundle of a base name, read at most once for each locale (`bundle_for`). -/
def bundle (s : Shelf) (base : String) (locale : Locale) :
    Except IoError (Option Bundle) × Shelf :=
  match s.bundles.find? (fun e => e.1 = locale) with
  | some (_, found) => (.ok found, s)
  | none =>
    match s.readBundle base locale with
    | (.ok found, s) => (.ok found, { s with bundles := (locale, found) :: s.bundles })
    | (.error e, s) => (.error e, s)

end Shelf

end Stencil
