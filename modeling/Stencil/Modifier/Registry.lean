import Stencil.Data.Fields
import Stencil.Modifier.Escape
import Stencil.Modifier.Format

/-!
# Registries of modifiers

A modifier turns a scalar into another one before it is written, under an optional argument and the
settings of the render.  A registry finds modifiers by their names.

* `Registry.builtins`: `format` and the escapers `^html`, `^xml`, `^json`, `^csv` and `^url`;
* `Registry.register`, `Registry.resolve?`: writes and reads an entry;
* `Registry.bind?`: another name for a modifier, with an argument for when none is given.
-/

namespace Stencil

/-- A transformation of scalars. -/
abbrev Modifier := Scalar → Option String → Settings → Scalar

namespace Modifier

/-- The modifier that escapes the text of a scalar (`escape_with`). -/
def escaping (escape : String → String) : Modifier := fun value _ _ => .text (escape value.display)

/-- A modifier with an argument for when none is given (`BoundModifier`). -/
def bound (m : Modifier) (argument : Option String) : Modifier :=
  fun value given settings => m value (given.or argument) settings

end Modifier

/-- Modifiers by their names (`ModifierRegistry`).  The names are different. -/
structure Registry where
  entries : List (String × Modifier)

namespace Registry

/-- A registry without modifiers. -/
def empty : Registry := ⟨[]⟩

/-- Enters a modifier under a name, in the place of one that is there. -/
def register (r : Registry) (name : String) (m : Modifier) : Registry :=
  ⟨Fields.put name m r.entries⟩

/-- The modifier of a name. -/
def resolve? (r : Registry) (name : String) : Option Modifier := Fields.get? name r.entries

/-- The modifiers that are always there. -/
def builtins : Registry :=
  ⟨[("format", format),
    ("^html", .escaping Escape.markup),
    ("^xml", .escaping Escape.markup),
    ("^json", .escaping Escape.json),
    ("^csv", .escaping Escape.csv),
    ("^url", .escaping Escape.form)]⟩

/-- The names of a registry, in order. -/
def names (r : Registry) : List String := (r.entries.map (·.1)).mergeSort

/-- Enters, under a name, what the registry now has under the name `base`, with an argument for when
none is given: one round of `apply_config`. -/
def bind? (r : Registry) (name base : String) (argument : Option String) : Option Registry :=
  (r.resolve? base).map fun m => r.register name (m.bound argument)

end Registry

end Stencil
