import Stencil.Yaml.Token

/-!
# YAML nodes

A YAML document is a tree of scalars, lists and maps, in which a node may have a name and stand in
further places by that name.  Trees are put together as the parser of `serde_yaml` does it.

* `Node`: the tree;
* `Document`: a tree with its named nodes, `Document.target?` what a reference stands for;
* `Document.parse?`: reads the one document of a text.

The readers of nodes are given fuel, of which each uses up one unit.
-/

namespace Stencil.Yaml

/-- A YAML node.  A plain scalar has no quotes around it; a reference stands for a node with a
name, by the number of the name. -/
inductive Node where
  | scalar (tag : Option Tag) (plain : Bool) (text : String)
  | list (tag : Option Tag) (items : List Node)
  | map (tag : Option Tag) (entries : List (Node × Node))
  | reference (number : Nat)
  deriving Inhabited

namespace Node

/-- Nothing is written where a node could stand. -/
def absent : Node := .scalar none true ""

/-- Whether nothing is written where a node could stand, but perhaps a tag. -/
def isAbsent : Node → Bool
  | .scalar _ true "" => true
  | _ => false

mutual

/-- The size of a node: one for each scalar and reference, and two for each list and map besides
what it holds. -/
def size : Node → Nat
  | .list _ items => sizeOfItems items + 2
  | .map _ entries => sizeOfEntries entries + 2
  | _ => 1

/-- The size of the items of a list. -/
def sizeOfItems : List Node → Nat
  | [] => 0
  | item :: items => item.size + sizeOfItems items

/-- The size of the entries of a map. -/
def sizeOfEntries : List (Node × Node) → Nat
  | [] => 0
  | (key, value) :: entries => key.size + value.size + sizeOfEntries entries

end

end Node

/-- A node with a name: the number of the name, and how many nodes with names start in front of
it. -/
structure NamedNode where
  number : Nat
  order : Nat
  node : Node

/-- A tree, with the nodes that have names. -/
structure Document where
  root : Node
  named : List NamedNode

/-- The node that a reference stands for: the last one in the document with the number. -/
def Document.target? (d : Document) (number : Nat) : Option Node :=
  let later (found : Option NamedNode) (n : NamedNode) : Option NamedNode :=
    if found.all (·.order ≤ n.order) then some n else found
  ((d.named.filter (·.number = number)).foldl later none).map (·.node)

/-! ## Reading -/

/-- The state of reading: the tokens ahead, the handles of tags, the number of each name, the nodes
with names that have been read, and how many have started. -/
structure Reading where
  tokens : List Token
  handles : List Handle
  numbers : List (String × Nat)
  named : List NamedNode
  started : Nat

/-- Readers, which may fail. -/
abbrev Read := StateT Reading Option

namespace Read

/-- The next token. -/
def peek : Read (Option Token) := do pure (← get).tokens.head?

/-- Passes over a token. -/
def advance : Read Unit := modify fun r => { r with tokens := r.tokens.tail }

/-- Numbers a name.  A new name has the next number, and so has an old one that is used again: it
shares the number with the next new name then. -/
def declare (name : String) : Read (Nat × Nat) := do
  let r ← get
  let number := r.numbers.length
  set { r with
    numbers := (name, number) :: r.numbers.filter (·.1 ≠ name)
    started := r.started + 1 }
  pure (number, r.started)

/-- Keeps a node with a name. -/
def keep (number order : Nat) (node : Node) : Read Unit :=
  modify fun r => { r with named := ⟨number, order, node⟩ :: r.named }

/-- The number of a name. -/
def numberOf (name : String) : Read Nat := do
  match (← get).numbers.lookup name with
  | some number => pure number
  | none => failure

/-- The tag that is meant. -/
def tagOf (tag : ShortTag) : Read Tag := do
  match tag.expand? (← get).handles with
  | some tag => pure tag
  | none => failure

/-- Reads the anchor and the tag in front of a node, in any order. -/
def properties : Read (Option String × Option ShortTag) := do
  match ← peek with
  | some (.anchor name) => do
    advance
    match ← peek with
    | some (.tag tag) => do advance; pure (some name, some tag)
    | _ => pure (some name, none)
  | some (.tag tag) => do
    advance
    match ← peek with
    | some (.anchor name) => do advance; pure (some name, some tag)
    | _ => pure (none, some tag)
  | _ => pure (none, none)

/-- What kind of place a node stands in: within a flow node, as an item or a whole document, or as a
key or a value in lines of its own, where the items of a list need no indentation. -/
inductive Place where
  | flow
  | block
  | entry
  deriving DecidableEq

mutual

/-- Reads a node. -/
def node (place : Place) : Nat → Read Node
  | 0 => failure
  | fuel + 1 => do
    match ← peek with
    | some (.reference name) => do
      advance
      pure (.reference (← numberOf name))
    | _ => do
      let (anchor, short) ← properties
      let tag ← short.mapM tagOf
      match anchor with
      | none => content place tag short.isSome fuel
      | some name => do
        let (number, order) ← declare name
        let read ← content place tag true fuel
        keep number order read
        pure read

/-- Reads a node behind its properties, of which there may be some. -/
def content (place : Place) (tag : Option Tag) (marked : Bool) : Nat → Read Node
  | 0 => failure
  | fuel + 1 => do
    match ← peek, place with
    | some .item, .entry => pure (.list tag (← looseItems fuel))
    | some (.scalar plain text), _ => do advance; pure (.scalar tag plain text)
    | some .flowList, _ => do
      advance
      pure (.list tag (← flowItems true fuel))
    | some .flowMap, _ => do
      advance
      pure (.map tag (← flowEntries true fuel))
    | some .blockList, .block | some .blockList, .entry => do
      advance
      pure (.list tag (← blockItems fuel))
    | some .blockMap, .block | some .blockMap, .entry => do
      advance
      pure (.map tag (← blockEntries fuel))
    | _, _ => if marked then pure (.scalar tag true "") else failure

/-- Reads the items of an indented list and its end. -/
def blockItems : Nat → Read (List Node)
  | 0 => failure
  | fuel + 1 => do
    match ← peek with
    | some .blockEnd => do advance; pure []
    | some .item => do
      advance
      let first ← match ← peek with
        | some .item | some .blockEnd => pure Node.absent
        | _ => node .block fuel
      pure (first :: (← blockItems fuel))
    | _ => failure

/-- Reads the items of a list without indentation. -/
def looseItems : Nat → Read (List Node)
  | 0 => failure
  | fuel + 1 => do
    match ← peek with
    | some .item => do
      advance
      let first ← match ← peek with
        | some .item | some .key | some .value | some .blockEnd => pure Node.absent
        | _ => node .block fuel
      pure (first :: (← looseItems fuel))
    | _ => pure []

/-- Reads the entries of an indented map and its end. -/
def blockEntries : Nat → Read (List (Node × Node))
  | 0 => failure
  | fuel + 1 => do
    match ← peek with
    | some .blockEnd => do advance; pure []
    | some .key => do
      advance
      let key ← blockHalf fuel
      let value ← match ← peek with
        | some .value => do advance; blockHalf fuel
        | _ => pure Node.absent
      pure ((key, value) :: (← blockEntries fuel))
    | _ => failure

/-- Reads the key or the value of an entry, which may be missing. -/
def blockHalf : Nat → Read Node
  | 0 => failure
  | fuel + 1 => do
    match ← peek with
    | some .key | some .value | some .blockEnd => pure Node.absent
    | _ => node .entry fuel

/-- Reads the items of a list in brackets and its end; there is a comma in front of each but the
first. -/
def flowItems (first : Bool) : Nat → Read (List Node)
  | 0 => failure
  | fuel + 1 => do
    match ← peek, first with
    | some .flowListEnd, _ => do advance; pure []
    | some .comma, false => do
      advance
      match ← peek with
      | some .flowListEnd => do advance; pure []
      | _ => do
        let item ← flowItem fuel
        pure (item :: (← flowItems false fuel))
    | _, true => do
      let item ← flowItem fuel
      pure (item :: (← flowItems false fuel))
    | _, false => failure

/-- Reads an item of a list in brackets.  An entry in such a place is a map of its own; behind the
mark of a key whose node is missing, the token that shows this is passed over. -/
def flowItem : Nat → Read Node
  | 0 => failure
  | fuel + 1 => do
    match ← peek with
    | some .key => do
      advance
      let key ← match ← peek with
        | some .value | some .comma | some .flowListEnd => do advance; pure Node.absent
        | _ => node .flow fuel
      pure (.map none [(key, ← flowValue fuel)])
    | _ => node .flow fuel

/-- Reads the entries of a map in braces and its end; there is a comma in front of each but the
first. -/
def flowEntries (first : Bool) : Nat → Read (List (Node × Node))
  | 0 => failure
  | fuel + 1 => do
    match ← peek, first with
    | some .flowMapEnd, _ => do advance; pure []
    | some .comma, false => do
      advance
      match ← peek with
      | some .flowMapEnd => do advance; pure []
      | _ => do
        let entry ← flowEntry fuel
        pure (entry :: (← flowEntries false fuel))
    | _, true => do
      let entry ← flowEntry fuel
      pure (entry :: (← flowEntries false fuel))
    | _, false => failure

/-- Reads an entry of a map in braces; without the mark of a key it has no value. -/
def flowEntry : Nat → Read (Node × Node)
  | 0 => failure
  | fuel + 1 => do
    match ← peek with
    | some .key => do
      advance
      let key ← match ← peek with
        | some .value | some .comma | some .flowMapEnd => pure Node.absent
        | _ => node .flow fuel
      pure (key, ← flowValue fuel)
    | _ => pure (← node .flow fuel, Node.absent)

/-- Reads the value of an entry within a flow node, which may be missing. -/
def flowValue : Nat → Read Node
  | 0 => failure
  | fuel + 1 => do
    match ← peek with
    | some .value => do
      advance
      match ← peek with
      | some .comma | some .flowListEnd | some .flowMapEnd => pure Node.absent
      | _ => node .flow fuel
    | _ => pure Node.absent

end

/-- Reads the directives of a document: at most one of a version, which has to be 1.1 or 1.2, and at
most one of each handle. -/
def directives : List Token → (versioned : Bool) → List Handle → Option (List Token × List Handle)
  | .version major minor :: rest, versioned, handles =>
    if versioned || major ≠ 1 || (minor ≠ 1 && minor ≠ 2) then none
    else directives rest true handles
  | .handle handle :: rest, versioned, handles =>
    if handles.any (·.name = handle.name) then none
    else directives rest versioned (handle :: handles)
  | tokens, _, handles => some (tokens, handles)

/-- Reads the root of a document.  Behind the mark of its start it may be missing. -/
def root (tokens : List Token) : Option (Node × Reading) := do
  let read (tokens : List Token) (handles : List Handle) :=
    (node .block (4 * tokens.length + 8)).run ⟨tokens, handles ++ Handle.defaults, [], [], 0⟩
  match tokens with
  | .version .. :: _ | .handle .. :: _ | .documentStart :: _ =>
    match ← directives tokens false [] with
    | (.documentStart :: rest, handles) =>
      match rest with
      | [] | .documentEnd :: _ => pure (.absent, ⟨rest, handles, [], [], 0⟩)
      | _ => read rest handles
    | _ => none
  | _ => read tokens []

end Read

namespace Document

/-- Whether nothing but marks of ends follows. -/
def isOver (tokens : List Token) : Bool :=
  tokens.all fun token => match token with
    | .documentEnd => true
    | _ => false

/-- Reads a text with one document, which may be empty. -/
def parse? (text : String) : Option Document := do
  match ← Token.ofText? text with
  | [] => pure ⟨.absent, []⟩
  | tokens => do
    let (root, left) ← Read.root tokens
    if isOver left.tokens then pure ⟨root, left.named⟩ else none

end Document

end Stencil.Yaml
