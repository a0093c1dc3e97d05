import Stencil.Number.Digits
import Stencil.Text.Utf8
import Stencil.Yaml.Spot

/-!
# YAML tags

A tag names the type of a node.  It is written out in full as `!<..>`, or as a handle that stands for
the first part of a tag with the rest behind it: `!word!rest`, `!!rest` or `!rest`.  Characters of a
tag may be written as octets in hexadecimal, so a tag is a list of octets.  Tags are read as
`serde_yaml` reads them.

* `ShortTag.read?`: reads a tag as it is written;
* `Handle.read?`: reads the directive that says what a handle stands for;
* `ShortTag.expand?`: the tag that is meant.
-/

namespace Stencil.Yaml

open Number

/-- A tag by its octets. -/
abbrev Tag := List UInt8

namespace Tag

/-- The tag with the given characters. -/
def ofChars (s : List Char) : Tag := Utf8.encode s

/-- The tag of a core type. -/
def core (name : String) : Tag := ofChars ("tag:yaml.org,2002:" ++ name).toList

/-- A tag up to its first zero octet, which ends it. -/
def cut (tag : Tag) : Tag := tag.takeWhile (· ≠ 0)

/-! ## Octets -/

/-- Reads an octet in hexadecimal. -/
def octet? : List Char → Option (Nat × List Char)
  | '%' :: a :: b :: rest => do pure ((← hexValue? a) * 16 + (← hexValue? b), rest)
  | _ => none

/-- Reads the octets of a character behind its first one. -/
def laterOctets? : Nat → List Char → Option (List Nat × List Char)
  | 0, s => some ([], s)
  | n + 1, s => do
    let (octet, rest) ← octet? s
    if octet / 64 ≠ 2 then none
    let (octets, rest) ← laterOctets? n rest
    pure (octet :: octets, rest)

/-- The number of octets behind the first octet of a character. -/
def owedOctets? (first : Nat) : Option Nat :=
  if first < 0x80 then some 0
  else if first < 0xC0 then none
  else if first < 0xE0 then some 1
  else if first < 0xF0 then some 2
  else if first < 0xF8 then some 3
  else none

/-- Reads the octets of a character. -/
def escaped? (s : List Char) : Option (Tag × List Char) := do
  let (first, rest) ← octet? s
  let (later, rest) ← laterOctets? (← owedOctets? first) rest
  pure ((first :: later).map Nat.toUInt8, rest)

/-- The characters of a tag; `wide` lets three marks of flow nodes be some of them. -/
def isTagChar (wide : Bool) (c : Char) : Bool :=
  isWord c || [';', '/', '?', ':', '@', '&', '=', '+', '$', '.', '!', '~', '*', '\'', '(', ')'].contains c
    || (wide && [',', '[', ']'].contains c)

/-- Reads the characters of a tag that come next; each uses up at least one of the `fuel`
characters. -/
def run? (wide : Bool) : Nat → List Char → Option (Tag × List Char)
  | 0, s => some ([], s)
  | _, [] => some ([], [])
  | fuel + 1, c :: rest =>
    if c = '%' then do
      let (octets, rest) ← escaped? (c :: rest)
      let (more, rest) ← run? wide fuel rest
      pure (octets ++ more, rest)
    else if isTagChar wide c then
      (run? wide fuel rest).map fun (more, rest) => (ofChars [c] ++ more, rest)
    else some ([], c :: rest)

/-- Reads at least one character of a tag, up to a zero octet. -/
def some? (wide : Bool) (s : List Char) : Option (Tag × List Char) := do
  let (tag, rest) ← run? wide s.length s
  if rest.length < s.length then some (cut tag, rest) else none

end Tag

/-! ## Handles -/

/-- What a handle stands for. -/
structure Handle where
  name : String
  start : Tag

namespace Handle

/-- The handles that need no directive. -/
def defaults : List Handle :=
  [⟨"!", Tag.ofChars ['!']⟩, ⟨"!!", Tag.core ""⟩]

/-- Reads the name of a handle. -/
def name? : List Char → Option (String × List Char)
  | '!' :: rest =>
    let word := rest.takeWhile isWord
    match rest.dropWhile isWord with
    | '!' :: rest => some (String.ofList ('!' :: word ++ ['!']), rest)
    | rest => if word.isEmpty then some ("!", rest) else none
  | _ => none

/-- Reads what a directive says of a handle: its name and the start of a tag, with blanks in front
of both. -/
def read? (s : List Char) : Option (Handle × List Char) := do
  let (name, rest) ← name? (s.dropWhile isGap)
  if !rest.head?.any isGap then none
  let (start, rest) ← Tag.some? true (rest.dropWhile isGap)
  if !atSpace rest then none
  pure (⟨name, start⟩, rest)

end Handle

/-- A tag as it is written: the name of a handle, which is empty in a full tag, and the rest. -/
structure ShortTag where
  handle : String
  rest : Tag

namespace ShortTag

/-- Reads the characters of a tag.  A lone mark is a tag of its own. -/
def chars? : List Char → Option (ShortTag × List Char)
  | '!' :: '<' :: rest => do
    match ← Tag.some? true rest with
    | (tag, '>' :: rest) => pure (⟨"", tag⟩, rest)
    | _ => none
  | '!' :: rest =>
    let word := rest.takeWhile isWord
    match rest.dropWhile isWord with
    | '!' :: rest => do
      let (tag, rest) ← Tag.some? false rest
      pure (⟨String.ofList ('!' :: word ++ ['!']), tag⟩, rest)
    | rest => do
      let (tag, rest) ← Tag.run? false rest.length rest
      let tag := Tag.cut (Tag.ofChars word ++ tag)
      pure (if tag.isEmpty then ⟨"", Tag.ofChars ['!']⟩ else ⟨"!", tag⟩, rest)
  | _ => none

/-- Reads a tag.  It ends at a blank or the end of a line, or inside brackets at a comma. -/
def read? (flow : Bool) (s : List Char) : Option (ShortTag × List Char) := do
  let (tag, rest) ← chars? s
  if atSpace rest || (flow && rest.head? == some ',') then some (tag, rest) else none

/-- The tag that is meant, unless its handle is unknown. -/
def expand? (handles : List Handle) (tag : ShortTag) : Option Tag :=
  if tag.handle = "" then some tag.rest
  else (handles.find? (·.name = tag.handle)).map (·.start ++ tag.rest)

end ShortTag

end Stencil.Yaml
