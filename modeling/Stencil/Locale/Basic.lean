import Stencil.Text.Cut

/-!
# Locales

A locale is a language with an optional region.  Its tag is written `en-US` or `fr`; it is read
from tags with either a hyphen or an underscore, and whatever stands behind the region is ignored.

* `Locale.parse`: the locale of a tag;
* `Locale.tag`: the tag of a locale;
* `Locale.bundleSuffixes`: the file name suffixes of its text bundles.
-/

namespace Stencil

/-- A language in small letters and, if known, a region in capitals. -/
structure Locale where
  language : String
  region : Option String
  deriving DecidableEq

namespace Locale

/-- A locale from its parts (`new`): ASCII letters of the language become small and those of the
region capital, and an empty region is none. -/
def ofParts (language : String) (region : Option String) : Locale :=
  { language := String.ofList (language.toList.map Char.toLower)
    region := (region.filter (fun r => r ≠ "")).map
      (fun r => String.ofList (r.toList.map Char.toUpper)) }

/-- The locale where none is given: English in the United States. -/
def default : Locale := ⟨"en", some "US"⟩

instance : Inhabited Locale := ⟨default⟩

/-- The parts of a tag that are not empty; hyphens and underscores separate parts. -/
def tagParts (tag : String) : List String :=
  let dashed := tag.toList.map (fun c => if c = '_' then '-' else c)
  ((Text.splitAt '-' dashed).filter (fun part => !part.isEmpty)).map String.ofList

/-- The locale of a tag; a tag without parts gives the default locale. -/
def parse (tag : String) : Locale :=
  match tagParts tag with
  | [] => default
  | language :: rest => ofParts language rest.head?

/-- The tag of a locale, with a hyphen before the region. -/
def tag (l : Locale) : String :=
  match l.region with
  | some r => l.language ++ "-" ++ r
  | none => l.language

/-- The suffixes of the files that hold texts for a locale, the most specific first. -/
def bundleSuffixes (l : Locale) : List String :=
  let general := ["_" ++ l.language, ""]
  match l.region with
  | some r => ("_" ++ l.language ++ "_" ++ r) :: general
  | none => general

end Locale

end Stencil
