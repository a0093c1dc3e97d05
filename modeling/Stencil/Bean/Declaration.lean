/-!
# Declarations

A type of records is declared by its shape, its fields and attributes on both.  An attribute for
properties is a list of directives; all other attributes are left alone here.

* `Directive`: `skip`, `rename = "id"`, `property(name = "..", with = "..")` and whatever else can
  be written in their form;
* `Declaration`: a declared type;
* `DeclarationError`: why a declaration gives no properties, `DeclarationError.message` the wording.
-/

namespace Stencil

/-- A literal on the right of an equals sign (`Expr`). -/
inductive Literal where
  | text (s : String)
  | number (n : Int)
  | truth (b : Bool)
  deriving DecidableEq

/-- One directive of an attribute (`Meta`): a bare name, a name with a value, or a name with
directives in parentheses. -/
inductive Directive where
  | flag (name : String)
  | assign (name : String) (value : Literal)
  | group (name : String) (inner : List Directive)

/-- An attribute: the directives of one for properties, or one for something else. -/
inductive Attribute where
  | properties (directives : List Directive)
  | foreign

/-- The directives of the attributes for properties, one list for each. -/
def Attribute.directives : List Attribute → List (List Directive) :=
  List.filterMap fun
    | .properties directives => some directives
    | .foreign => none

/-- A declared field, with its name as it is written. -/
structure FieldDeclaration where
  name : String
  attributes : List Attribute

/-- The shape of a declared type. -/
inductive Shape where
  | fields (fields : List FieldDeclaration)
  | unit
  | tuple
  | choice
  | overlay

/-- A declared type. -/
structure Declaration where
  shape : Shape
  attributes : List Attribute

/-- Why a declaration gives no properties. -/
inductive DeclarationError where
  /-- The fields have no names. -/
  | unnamedFields
  /-- The type has no fields of its own. -/
  | notRecord
  /-- A field has an unknown directive. -/
  | unknownFieldDirective
  /-- A type has an unknown directive. -/
  | unknownTypeDirective
  /-- A computed property has an unknown option. -/
  | unknownPropertyOption
  /-- A computed property has no name or no function. -/
  | incompleteProperty
  /-- The value of an option is no text. -/
  | notText (option : String)
  /-- The text of an option is no path, in the words of whoever reads paths. -/
  | notPath (wording : String)
  deriving DecidableEq

/-- The wording of a failure. -/
def DeclarationError.message : DeclarationError → String
  | .unnamedFields => "Bean can only be derived for structs with named fields"
  | .notRecord => "Bean can only be derived for structs"
  | .unknownFieldDirective => "unknown bean attribute. Expected: skip or rename = \"...\""
  | .unknownTypeDirective =>
    "unknown bean attribute. Expected: property(name = \"...\", with = \"...\")"
  | .unknownPropertyOption =>
    "unknown property option. Expected: name = \"...\" or with = \"...\""
  | .incompleteProperty => "property requires both name = \"...\" and with = \"...\""
  | .notText option => option ++ " must be a string literal"
  | .notPath wording => wording

end Stencil
