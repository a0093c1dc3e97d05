import Stencil.Number.Binary64
import Stencil.Number.Notation
import Stencil.Yaml.Node

/-!
# YAML data

What the nodes of a document stand for once tags, references and plain scalars are resolved: a
scalar without quotes may stand for null, a truth value or a number instead of a text.  Which ones
do, and how many references may be followed, is what `serde_yaml` documents.

* `Datum`: what a node stands for;
* `Datum.ofPlain?`: what a plain scalar stands for;
* `Lookup`: lookups in a document, which follow only so many references;
* `Lookup.datum`: reads what a node stands for.
-/

namespace Stencil.Yaml

open Number

/-- What a node stands for.  Of numbers, only the natural ones below `2 ^ 64` are told apart. -/
inductive Datum where
  | null
  | truth
  | natural (n : Nat)
  | number
  | text (s : String)
  | list (items : List Datum)
  | map (entries : List (Datum × Datum))

namespace Datum

/-! ## Plain scalars -/

/-- The magnitude of an integer in base 16, 8 or 2, behind its mark. -/
def markedInteger? : List Char → Option Nat
  | '0' :: 'x' :: rest => natural? 16 rest
  | '0' :: 'o' :: rest => natural? 8 rest
  | '0' :: 'b' :: rest => natural? 2 rest
  | _ => none

/-- Digits with a zero too many in front, which are no number. -/
def hasLeadingZero (s : List Char) : Bool :=
  let digits := (unsigned s).2
  1 < digits.length && digits.head? == some '0' && digits.all Char.isDigit

/-- An integer: its sign and its magnitude. -/
def integer? (s : List Char) : Option (Bool × Nat) :=
  let (negative, rest) := unsigned s
  if hasLeadingZero s then none
  else ((markedInteger? rest).orElse fun _ => natural? 10 rest).map (negative, ·)

/-- Whether an integer has at most 64 bits, or at most 128. -/
def fits (bits : Nat) (negative : Bool) (magnitude : Nat) : Bool :=
  if negative then magnitude ≤ Nat.pow 2 (bits - 1) else magnitude < Nat.pow 2 bits

/-- The words for infinity and for no number. -/
def numberWords : List String :=
  [".inf", ".Inf", ".INF", "+.inf", "+.Inf", "+.INF", "-.inf", "-.Inf", "-.INF", ".nan", ".NaN", ".NAN"]

/-- A decimal notation in the range of binary64, or a word for a number. -/
def isDecimal (s : List Char) : Bool :=
  let isFinite (s : List Char) : Bool :=
    (decimalNotation? s).any fun n => (Binary64.ofScientific false n.digits n.scale).isFinite
  numberWords.contains (String.ofList s) ||
    match s with
    | '+' :: '+' :: _ | '+' :: '-' :: _ => false
    | _ => isFinite s

/-- An integer as a datum.  Those of more than 64 bits but at most 128 are refused. -/
def ofInteger? (negative : Bool) (magnitude : Nat) : Option Datum :=
  if fits 64 negative magnitude then some (if negative then .number else .natural magnitude) else none

/-- The words for null. -/
def isNull (text : String) : Bool := ["~", "null", "Null", "NULL"].contains text

/-- The words for truth values. -/
def isTruth (text : String) : Bool :=
  ["true", "True", "TRUE", "false", "False", "FALSE"].contains text

/-- What a plain scalar stands for. -/
def ofPlain? (text : String) : Option Datum :=
  let s := text.toList
  if text = "" || isNull text then some .null
  else if isTruth text then some .truth
  else
    match (integer? s).filter fun (negative, magnitude) => fits 128 negative magnitude with
    | some (negative, magnitude) => ofInteger? negative magnitude
    | none => some (if !hasLeadingZero s && isDecimal s then .number else .text text)

/-! ## Tags -/

/-- Whether a tag is local: it starts with its mark, and is a text. -/
def isLocal (tag : Tag) : Bool :=
  match tag with
  | 0x21 :: rest => (Utf8.decodeAll? rest).isSome
  | _ => false

/-- What a scalar stands for.  The tags of core types decide how it is read; local tags are
refused, and all other tags make it a text. -/
def ofScalar? (tag : Option Tag) (plain : Bool) (text : String) : Option Datum :=
  match tag with
  | none => if plain then ofPlain? text else some (.text text)
  | some tag =>
    if isLocal tag then none
    else if tag = Tag.core "bool" then if isTruth text then some .truth else none
    else if tag = Tag.core "int" then do
      let (negative, magnitude) ← integer? text.toList
      ofInteger? negative magnitude
    else if tag = Tag.core "float" then if isDecimal text.toList then some .number else none
    else if tag = Tag.core "null" then if isNull text then some .null else none
    else if plain && tag.head? == some 0x21 then ofPlain? text
    else some (.text text)

/-- Whether a tag in front of a list or a map is refused. -/
def refusesTag (tag : Option Tag) : Bool := tag.any isLocal

end Datum

/-! ## Lookups -/

/-- Lookups in a document, which may fail.  Their state is the number of references that they may
still follow. -/
abbrev Lookup := ReaderT Document (StateT Nat Option)

namespace Lookup

/-- Fails unless a condition holds. -/
def require (condition : Bool) : Lookup Unit := if condition then pure () else failure

/-- The node that is meant, which may stand elsewhere. -/
def follow : Node → Lookup Node
  | .reference number => do
    match (← read).target? number, ← get with
    | some node, left + 1 => do set left; pure node
    | _, _ => failure
  | node => pure node

/-- The characters of a scalar, whatever it stands for. -/
def characters (node : Node) : Lookup String := do
  match ← follow node with
  | .scalar _ _ text => pure text
  | _ => failure

/-- Reads what a node stands for.  Lists and maps within each other may be at most `depth` deep. -/
def datum : (depth : Nat) → Node → Lookup Datum
  | 0, node => do
    match ← follow node with
    | .scalar tag plain text => monadLift (Datum.ofScalar? tag plain text)
    | _ => failure
  | depth + 1, node => do
    match ← follow node with
    | .scalar tag plain text => monadLift (Datum.ofScalar? tag plain text)
    | .list tag items => do
      require (!Datum.refusesTag tag)
      pure (.list (← items.mapM (datum depth)))
    | .map tag entries => do
      require (!Datum.refusesTag tag)
      pure (.map (← entries.mapM fun (key, value) => do
        pure (← datum depth key, ← datum depth value)))
    | .reference _ => failure

/-- What a lookup finds in a document.  It may follow a hundred references for each unit of the size
of the document. -/
def run? (lookup : Lookup α) (d : Document) : Option α :=
  ((ReaderT.run lookup d).run (100 * d.root.size)).map (·.1)

end Lookup

end Stencil.Yaml
