import Stencil.Input.Reader
import Stencil.Render.Error
import Stencil.Text.Cut

/-!
# Markers

A marker is what stands between two opening and two closing braces in a template:

* `name`, `a.b:modifier=argument:modifier`: a variable with its modifiers;
* `#name`, `#name[separator]`: the start of a repeating section;
* `?name`, `^name`: the start of a conditional and of an inverted section;
* `/name`: the end of a section;
* `>name`: an included template;
* `!text`: a comment.

`Marker.parse` reads the text of a marker, and `Marker.read` reads a marker from a reader that
stands behind the opening braces.
-/

namespace Stencil

/-- What a marker asks for. -/
inductive MarkerKind where
  | variable
  | repeating
  | conditional
  | inverted
  | sectionEnd
  | include
  | comment
  deriving DecidableEq

/-- The kind that the first character of a marker tells (`from_prefix`). -/
def MarkerKind.ofChar : Char → MarkerKind
  | '#' => .repeating
  | '?' => .conditional
  | '^' => .inverted
  | '/' => .sectionEnd
  | '>' => .include
  | '!' => .comment
  | _ => .variable

/-- A modifier as a marker names it. -/
structure ModifierCall where
  name : String
  argument : Option String
  deriving DecidableEq

/-- A marker.  Only a repeating section has a separator; the name of a comment is its text. -/
structure Marker where
  kind : MarkerKind
  name : String
  separator : Option String
  modifiers : List ModifierCall
  deriving DecidableEq

namespace Marker

/-- Reads one modifier: its argument stands behind the first equals sign. -/
def parseCall (part : List Char) : Option ModifierCall :=
  let (name, argument) := match Text.splitOnce '=' part with
    | some (name, argument) => (name, some (String.ofList argument))
    | none => (part, none)
  if name.isEmpty then none else some ⟨String.ofList name, argument⟩

/-- Splits a name with a separator in brackets behind it, from the last opening bracket on. -/
def splitSeparator (name : List Char) : List Char × Option (List Char) :=
  match name.reverse with
  | ']' :: _ =>
    match Text.splitLast '[' name with
    | some (bare, separator) => (bare, some separator.dropLast)
    | none => (name, none)
  | _ => (name, none)

/-- Reads the text of a marker that is not empty: the name stands before the first colon, a modifier
behind each.  Nothing for a name or a modifier without a name. -/
def parse (kind : MarkerKind) (text : List Char) : Option Marker :=
  if kind = .comment then some ⟨kind, String.ofList text, none, []⟩
  else
    match Text.splitAt ':' text with
    | [] => none
    | name :: parts =>
      if name.isEmpty then none
      else do
        let modifiers ← parts.mapM parseCall
        let (name, separator) := if kind = .repeating then splitSeparator name else (name, none)
        if name.isEmpty then none
        else some ⟨kind, String.ofList name, separator.map String.ofList, modifiers⟩

section

variable {φ : Type} [Feed φ]

/-- Reads the characters before the next closing brace, and the brace; at most `fuel` of them. -/
def readText : Nat → φ → Except RenderError (List Char) × φ
  | 0, r => (.error .unexpectedEnd, r)
  | fuel + 1, r =>
    match Feed.next r with
    | (.error e, r) => (.error (.io e), r)
    | (.ok none, r) => (.error .unexpectedEnd, r)
    | (.ok (some c), r) =>
      if c = '}' then (.ok [], r)
      else
        match readText fuel r with
        | (.error e, r) => (.error e, r)
        | (.ok cs, r) => (.ok (c :: cs), r)

/-- Reads the kind of a marker and its text, up to the first closing brace.  The first character of
a variable belongs to its text. -/
def readKind (r : φ) : Except RenderError (MarkerKind × List Char) × φ :=
  match Feed.next r with
  | (.error e, r) => (.error (.io e), r)
  | (.ok none, r) => (.error .unexpectedEnd, r)
  | (.ok (some first), r) =>
    let kind := MarkerKind.ofChar first
    if kind = .variable ∧ first = '}' then (.ok (kind, []), r)
    else
      match readText (Feed.left r + 1) r with
      | (.error e, r) => (.error e, r)
      | (.ok text, r) => (.ok (kind, if kind = .variable then first :: text else text), r)

/-- Reads a marker up to and including its two closing braces (`read_marker`). -/
def read (r : φ) : Except RenderError Marker × φ :=
  match readKind r with
  | (.error e, r) => (.error e, r)
  | (.ok (kind, text), r) =>
    if text.isEmpty then (.error .invalidMarker, r)
    else
      match Feed.next r with
      | (.error e, r) => (.error (.io e), r)
      | (.ok none, r) => (.error .improperlyTerminated, r)
      | (.ok (some c), r) =>
        if c = '}' then
          match parse kind text with
          | some m => (.ok m, r)
          | none => (.error .invalidMarker, r)
        else (.error .improperlyTerminated, r)

end

end Marker

end Stencil
