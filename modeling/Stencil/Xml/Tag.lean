import Stencil.Xml.Reference

/-!
# Tags

The text of a tag is its name up to the first space, and attributes behind it: a key, an equals sign
and a quoted value each, with spaces between them and around the equals sign.  These are the rules
that `quick-xml` documents for the attributes of a tag.

* `Tag.name`: the name in the text of a tag;
* `Tag.attributes?`: its attributes, if they are well formed and their keys are different.
-/

namespace Stencil.Tag

/-- The characters that separate parts of a tag. -/
def isSpace (c : Char) : Bool := c = ' ' || c = '\t' || c = '\n' || c = '\r'

/-- The text without leading spaces. -/
def skipSpaces (s : List Char) : List Char := s.dropWhile isSpace

/-- The name in the text of a tag. -/
def name (tag : List Char) : List Char := tag.takeWhile (fun c => !isSpace c)

/-- The characters that end the key of an attribute. -/
def endsKey (c : Char) : Bool := c = '=' || isSpace c

/-- The key at the start of a text, and what stands behind its equals sign.  The first character
belongs to the key whatever it is. -/
def key? : List Char → Option (List Char × List Char)
  | [] => none
  | first :: rest =>
    match skipSpaces (rest.dropWhile (fun c => !endsKey c)) with
    | '=' :: value => some (first :: rest.takeWhile (fun c => !endsKey c), value)
    | _ => none

/-- The quoted text at the start of a text, and what stands behind its closing quote. -/
def quoted? : List Char → Option (List Char × List Char)
  | [] => none
  | quote :: rest =>
    if quote = '"' ∨ quote = '\'' then
      match rest.dropWhile (· ≠ quote) with
      | [] => none
      | _ :: behind => some (rest.takeWhile (· ≠ quote), behind)
    else none

/-- The attributes in a text, behind those of `found`; each uses up at least one of the `fuel`
characters. -/
def attributesFrom : Nat → (found : List (List Char × List Char)) → List Char →
    Option (List (List Char × List Char))
  | 0, found, _ => some found
  | fuel + 1, found, s =>
    match skipSpaces s with
    | [] => some found
    | s => do
      let (key, rest) ← key? s
      if found.any (fun e => e.1 = key) then none
      else
        let (value, rest) ← quoted? (skipSpaces rest)
        let value ← Reference.resolve? value
        attributesFrom fuel (found ++ [(key, value)]) rest

/-- The attributes in the text of a tag, in order, with references resolved. -/
def attributes? (tag : List Char) : Option (List (String × String)) :=
  let behindName := tag.dropWhile (fun c => !isSpace c)
  (attributesFrom (behindName.length + 1) [] behindName).map
    (·.map fun (key, value) => (String.ofList key, String.ofList value))

end Stencil.Tag
