import Stencil.Data.Error
import Stencil.Data.Fields
import Stencil.Data.Row
import Stencil.Xml.Element

/-!
# Values

What templates are written from.  A value is null, a scalar, a dictionary or a sequence.

* A dictionary is a record of named values, an XML element, or any value under the key `.`, its
  *own* dictionary;
* a sequence is a list of values; or a series, which can be read again and again too, and gives
  failures among its values; or a single-pass sequence that is kept elsewhere and known by its
  number.

`Value.get?` looks up one key and `Value.lookup` a path of keys.  An XML element answers `.` with its
text, `@name` with an attribute, `name*` with the list of all elements of that name below it, and
`name` with the last of these.
-/

namespace Stencil

/-- What templates are written from.  The names of the fields of a record are different. -/
inductive Value where
  | null
  | scalar (s : Scalar)
  | record (fields : List (String × Value))
  | element (e : Element)
  | own (v : Value)
  | list (items : List Value)
  | series (items : List (Except DataError Value))
  | stream (id : Nat)
  deriving Inhabited

namespace Value

/-- The key under which a value stands in its own dictionary, and the key of an element's text
(`KEY`). -/
def ownKey : String := "."

/-- The name of the kind of a value, for messages. -/
def kind : Value → String
  | .null => "null"
  | .scalar s => s.kind
  | .record _ | .element _ | .own _ => "dictionary"
  | .list _ | .series _ | .stream _ => "sequence"

/-- Whether a value is null. -/
def isNull : Value → Bool
  | .null => true
  | _ => false

/-- The scalar that a value is, if it is one (`to_scalar`). -/
def scalar? : Value → Option Scalar
  | .scalar s => some s
  | _ => none

/-- Whether a value has keys (`as_dictionary`). -/
def isDictionary : Value → Bool
  | .record _ | .element _ | .own _ => true
  | _ => false

/-- Whether a value has elements (`as_sequence`). -/
def isSequence : Value → Bool
  | .list _ | .series _ | .stream _ => true
  | _ => false

/-- The elements of a sequence that can be read again and again: values, and failures in the places
of values. -/
def items? : Value → Option (List (Except DataError Value))
  | .list items => some (items.map .ok)
  | .series items => some items
  | _ => none

/-! ## Keys -/

/-- What an element answers to a key (`ElementAdapter`). -/
def elementGet? (e : Element) (key : String) : Option Value :=
  if key = ownKey then some (.scalar (.text e.text))
  else
    match key.toList with
    | '@' :: name => (e.attribute? (String.ofList name)).map (.scalar ∘ .text)
    | chars =>
      match chars.reverse with
      | '*' :: name => some (.list ((e.named (String.ofList name.reverse)).map .element))
      | _ => (e.named key).getLast?.map .element

/-- What a value answers to a key; nothing when it is no dictionary. -/
def get? (key : String) : Value → Option Value
  | .record fields => Fields.get? key fields
  | .element e => elementGet? e key
  | .own v => if key = ownKey then some v else none
  | _ => none

/-- The keys that a dictionary tells, with their values. -/
def entries : Value → List (String × Value)
  | .record fields => fields
  | .element e => e.attributes.map fun (name, value) => ("@" ++ name, .scalar (.text value))
  | .own v => [(ownKey, v)]
  | _ => []

/-- What a dictionary answers to a path of keys: each key but the last must lead to a dictionary.
The empty path leads to the dictionary itself. -/
def lookup : List String → Value → Option Value
  | [], v => some v
  | [key], v => v.get? key
  | key :: path, v =>
    match v.get? key with
    | some inner => if inner.isDictionary then lookup path inner else none
    | none => none

/-- The value as a dictionary: itself, or its own dictionary (`SelfDictionary`). -/
def asDictionary (v : Value) : Value := if v.isDictionary then v else .own v

/-! ## Values of rows and documents -/

mutual

/-- The value of a cell. -/
def ofCell : Cell → Value
  | .null => .null
  | .scalar s => .scalar s
  | .nested cells => .record (ofCells cells)
  | .list cells => .list (ofCellList cells)

/-- The values of named cells. -/
def ofCells : List (String × Cell) → List (String × Value)
  | [] => []
  | (name, cell) :: rest => (name, ofCell cell) :: ofCells rest

/-- The values of cells. -/
def ofCellList : List Cell → List Value
  | [] => []
  | cell :: rest => ofCell cell :: ofCellList rest

end

/-- The value of a row. -/
def ofRow (row : Row) : Value := .record (ofCells row)

mutual

/-- The value of a document. -/
def ofDocument : Document → Value
  | .null => .null
  | .bool b => .scalar (.bool b)
  | .number n => .scalar (.number (.ofDocument n))
  | .text s => .scalar (.text s)
  | .list items => .list (ofDocuments items)
  | .object fields => .record (ofObject fields)

/-- The values of documents. -/
def ofDocuments : List Document → List Value
  | [] => []
  | d :: rest => ofDocument d :: ofDocuments rest

/-- The values of named documents. -/
def ofObject : List (String × Document) → List (String × Value)
  | [] => []
  | (name, d) :: rest => (name, ofDocument d) :: ofObject rest

end

end Value

end Stencil
