import Stencil.Modifier.Registry
import Stencil.Yaml.Datum

/-!
# Configurations

A configuration is a YAML document that gives modifiers further names:

    modifiers:
      money:
        modifier: format
        argument: currency
      escape: ^html

* `Mapping`: what a name stands for;
* `Configuration.parse`: reads a document;
* `Registry.configure`: enters the names of a configuration into a registry, one after the other, so
  that later ones may refer to earlier ones.
-/

namespace Stencil

/-- What a name stands for (`ModifierMapping`): another name, or a modifier with an argument for
when none is given. -/
inductive Mapping where
  | same (base : String)
  | bound (base : String) (argument : Option String)
  deriving DecidableEq

namespace Mapping

/-- The name of the modifier behind a mapping. -/
def base : Mapping → String
  | .same base => base
  | .bound base _ => base

/-- The argument of a mapping. -/
def argument : Mapping → Option String
  | .same _ => none
  | .bound _ argument => argument

end Mapping

/-- Names with what they stand for, in order (`ModifierConfig`).  The names are different. -/
structure Configuration where
  mappings : List (String × Mapping)

/-- Why a configuration cannot be used (`RegistryError`). -/
inductive ConfigurationError where
  /-- The document is none, or says something else. -/
  | invalid
  /-- A name stands for a modifier that is not there. -/
  | unknownBase (name : String)
  /-- The registry of the process is in place already. -/
  | alreadyInstalled
  deriving DecidableEq

/-- The wording of a failure. -/
def ConfigurationError.message : ConfigurationError → String
  | .invalid => "invalid modifier configuration"
  | .unknownBase name => "modifier mapping refers to unknown modifier: " ++ name
  | .alreadyInstalled => "a process-wide modifier registry is already installed"

namespace Configuration

open Yaml

/-- The fields of a bound modifier. -/
inductive BoundField where
  | modifier
  | argument
  | other
  deriving DecidableEq

/-- The field that a key names, by its name or by its number. -/
def BoundField.ofKey? : Datum → Option BoundField
  | .text name =>
    some (if name = "modifier" then .modifier else if name = "argument" then .argument else .other)
  | .natural n => some (if n = 0 then .modifier else if n = 1 then .argument else .other)
  | _ => none

/-- The values of a field; it may be there at most once. -/
def single? (field : BoundField) (entries : List (BoundField × Datum)) : Option (Option Datum) :=
  match entries.filter (·.1 = field) with
  | [] => some none
  | [(_, datum)] => some (some datum)
  | _ => none

/-- The argument that a field gives: null is none. -/
def argument? : Option Datum → Option (Option String)
  | none => some none
  | some .null => some none
  | some (.text s) => some (some s)
  | some _ => none

/-- The mapping that is described. -/
def mapping? : Datum → Option Mapping
  | .text s => some (.same s)
  | .map entries => do
    let entries ← entries.mapM fun (key, datum) => (BoundField.ofKey? key).map (·, datum)
    match ← single? .modifier entries with
    | some (.text base) => pure (.bound base (← argument? (← single? .argument entries)))
    | _ => none
  | _ => none

/-- The entries of a map.  Nothing at all is an empty map, and tags do not matter. -/
def entriesOf (node : Node) : Lookup (List (Node × Node)) := do
  match ← Lookup.follow node with
  | .map _ entries => pure entries
  | node => if node.isAbsent then pure [] else failure

/-- The number of lists and maps that may be within each other below that of the mappings. -/
def mappingDepth : Nat := 126

/-- Reads the mappings that a node describes. -/
def mappingsOf (node : Node) : Lookup (List (String × Mapping)) := do
  let entries ← (← entriesOf node).mapM fun (key, value) => do
    let name ← Lookup.characters key
    match mapping? (← Lookup.datum mappingDepth value) with
    | some mapping => pure (name, mapping)
    | none => failure
  pure (Fields.ofList entries)

/-- Reads the configuration that a document describes: what stands under its key `modifiers`, which
may be there at most once. -/
def ofRoot (root : Node) : Lookup Configuration := do
  let entries ← (← entriesOf root).mapM fun (key, value) => do pure (← Lookup.characters key, value)
  match entries.filter (·.1 = "modifiers") with
  | [] => pure ⟨[]⟩
  | [(_, value)] => do pure ⟨← mappingsOf value⟩
  | _ => failure

/-- Reads a configuration (`from_yaml`). -/
def parse (text : String) : Except ConfigurationError Configuration :=
  match (Yaml.Document.parse? text).bind fun d => (ofRoot d.root).run? d with
  | some c => .ok c
  | none => .error .invalid

end Configuration

/-- Enters mappings into a registry (`apply_config`).  The first one that refers to nothing ends
this; the ones before it stay. -/
def Registry.configure : List (String × Mapping) → Registry →
    Except ConfigurationError Unit × Registry
  | [], r => (.ok (), r)
  | (name, mapping) :: rest, r =>
    match r.bind? name mapping.base mapping.argument with
    | some r => Registry.configure rest r
    | none => (.error (.unknownBase mapping.base), r)

end Stencil
