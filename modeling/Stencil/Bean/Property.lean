import Stencil.Bean.Declaration
import Stencil.Data.Fields
import Stencil.Text.Cut
import Stencil.Text.Uppercase
import Stencil.Value.Basic

/-!
# Properties of declared types

Every field of a declared type is a property, unless it is skipped: its key is its new name, or its
own name in camel case.  The computed properties of the type come after the fields.  A bean is a
value of a declared type, seen through its properties.

A computed property names its function by a path.  What is a path is up to `syn`, so that its parser
is given from outside: `PathSyntax`.

* `camelCase`: the key of a field name;
* `Property.ofDeclaration`: the properties of a declared type, in order;
* `Accessors`: the properties by their keys, where a later one takes the place of an earlier one;
* `Accessors.view`: a bean as a dictionary.
-/

namespace Stencil

/-! ## Keys -/

/-- Joins the words of a name; `started` tells whether anything has been written, and `raise`
whether the next character starts a word behind the first. -/
def camelFrom (started raise : Bool) : List Char → List Char
  | [] => []
  | c :: rest =>
    if c = '_' then camelFrom started started rest
    else if raise then Text.upper c ++ camelFrom true false rest
    else c :: camelFrom true false rest

/-- A name with underscores in camel case (`to_lower_camel_case`): underscores go, and the first
character of each word behind the first becomes a capital. -/
def camelCase (name : String) : String := String.ofList (camelFrom false false name.toList)

/-- The name of a field without the mark that lets it be a reserved word (`unraw`). -/
def unmarked (name : String) : String :=
  match name.toList with
  | 'r' :: '#' :: rest => String.ofList rest
  | _ => name

/-! ## Attributes -/

/-- What the attributes of a field ask for (`FieldAttr`). -/
structure FieldOptions where
  skip : Bool
  rename : Option String
  deriving DecidableEq

/-- The text of a literal, under the name of its option (`string_value`). -/
def Literal.text? (option : String) : Literal → Except DeclarationError String
  | .text s => .ok s
  | _ => .error (.notText option)

/-- Follows one directive of a field: one round of `parse` of `FieldAttr`. -/
def FieldOptions.follow (o : FieldOptions) : Directive → Except DeclarationError FieldOptions
  | .flag "skip" => .ok { o with skip := true }
  | .assign "rename" value => do pure { o with rename := some (← value.text? "rename") }
  | _ => .error .unknownFieldDirective

/-- The options of a field (`parse_field_attrs`): its first attribute for properties counts. -/
def FieldOptions.ofAttributes (attributes : List Attribute) :
    Except DeclarationError FieldOptions :=
  match Attribute.directives attributes with
  | [] => .ok ⟨false, none⟩
  | directives :: _ => directives.foldlM FieldOptions.follow ⟨false, none⟩

/-! ## Paths of functions -/

/-- What stands at a place of a path: a word, a comment up to the end of its line, or a comment with
some others around it. -/
inductive PathPart where
  | word
  | lineComment
  | comment (depth : Nat)

/-- The rest of a path without the blanks and the comments between its words.  Marks of the
direction of writing count as blanks. -/
def pathFrom : PathPart → List Char → List Char
  | _, [] => []
  | .word, '/' :: '/' :: rest => pathFrom .lineComment rest
  | .word, '/' :: '*' :: rest => pathFrom (.comment 0) rest
  | .word, c :: rest =>
    if Text.isBlank c || c = '\u200E' || c = '\u200F' then pathFrom .word rest
    else c :: pathFrom .word rest
  | .lineComment, c :: rest => pathFrom (if c = '\n' then .word else .lineComment) rest
  | .comment depth, '/' :: '*' :: rest => pathFrom (.comment (depth + 1)) rest
  | .comment 0, '*' :: '/' :: rest => pathFrom .word rest
  | .comment (depth + 1), '*' :: '/' :: rest => pathFrom (.comment depth) rest
  | .comment depth, _ :: rest => pathFrom (.comment depth) rest

/-- A path without blanks and comments. -/
def compactPath (path : String) : String := String.ofList (pathFrom .word path.toList)

/-- The syntax of paths: the path that a text is, as it is printed, or the wording why it is none.
It is what `syn` makes of a text where a `Path` is asked for. -/
class PathSyntax where
  parse : String → Except String String

/-- The syntax of someone who only writes paths: a text is the path that is left of it without blanks
and comments. -/
instance (priority := low) PathSyntax.trusting : PathSyntax where
  parse text := .ok (compactPath text)

/-! ## Properties -/

/-- What a property shows: a field, or what a function gives, by the name of either. -/
inductive Origin where
  | field (name : String)
  | computed (function : String)
  deriving DecidableEq

/-- A property of a declared type. -/
structure Property where
  key : String
  origin : Origin
  deriving DecidableEq

namespace Property

/-- Takes one option of a computed property: its name or its function, as one round of
`parse_property`. -/
def takeOption [PathSyntax] (found : Option String × Option String) :
    Directive → Except DeclarationError (Option String × Option String)
  | .assign "name" value => do pure (some (← value.text? "name"), found.2)
  | .assign "with" value => do
    let path ← (PathSyntax.parse (← value.text? "with")).mapError .notPath
    pure (found.1, some path)
  | _ => .error .unknownPropertyOption

/-- The computed property that a directive of a type declares (`parse_property`). -/
def ofDirective [PathSyntax] : Directive → Except DeclarationError Property
  | .group "property" options => do
    match ← options.foldlM takeOption (none, none) with
    | (some name, some function) => pure ⟨name, .computed function⟩
    | _ => throw .incompleteProperty
  | _ => throw .unknownTypeDirective

/-- The property of a field, unless the field is skipped: one round of `bean_derive_impl`. -/
def ofField? (f : FieldDeclaration) : Except DeclarationError (Option Property) := do
  let o ← FieldOptions.ofAttributes f.attributes
  pure (if o.skip then none else some ⟨o.rename.getD (camelCase (unmarked f.name)), .field f.name⟩)

/-- The properties of a declared type (`bean_derive_impl`).  A type without fields has none at
all. -/
def ofDeclaration [PathSyntax] (d : Declaration) : Except DeclarationError (List Property) :=
  match d.shape with
  | .unit => .ok []
  | .tuple => .error .unnamedFields
  | .choice | .overlay => .error .notRecord
  | .fields fields => do
    let computed ← (Attribute.directives d.attributes).flatten.mapM ofDirective
    let shown ← fields.mapM ofField?
    pure (shown.filterMap id ++ computed)

end Property

/-! ## Beans -/

/-- The origins of properties by their keys.  The keys are different. -/
abbrev Accessors := List (String × Origin)

namespace Accessors

/-- The accessors of properties: a later property takes the place of an earlier one of its key
(`add`). -/
def ofProperties (properties : List Property) : Accessors :=
  Fields.ofList (properties.map fun p => (p.key, p.origin))

/-- A bean as a dictionary (`BeanAdapter`); `field` gives the values of its fields, and `compute`
what functions give. -/
def view (accessors : Accessors) (field compute : String → Value) : Value :=
  .record (accessors.map fun (key, origin) =>
    (key, match origin with
      | .field name => field name
      | .computed function => compute function))

end Accessors

end Stencil
