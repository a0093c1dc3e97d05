import Stencil.Proofs.Data.Path
import Stencil.Proofs.Render.Twin
import Stencil.Render.Template

/-!
# Documents as values

A document becomes a value in several ways: as it is; as a cell, which is made of the whole document
first; as a row, if it is an object; or as a row that a sequence gives.  A row is also made of
labelled columns, whose labels are paths, but a key of a document is a name, even one with points.
So nobody who asks the values can tell the ways apart.  A number is the same numeral on all of them.

- `Numeral.ofDocument_signed`, `Numeral.ofDocument_natural`: which numeral a number is;
- `Numeral.ofDocument_injective`: **different numbers are different numerals**;
- `Value.Answers`: a value answers as the document says, which fixes its kind, its scalar, its
  entries with their order, its keys and its elements;
- `Value.ofCell_ofDocument`: the cell of a document has the value of the document;
- `Streams.Delivers`, `Streams.Delivers.next`: a sequence of objects gives one after the other;
- `Value.adaptsAlike`: **a document is the same value on every way**, and so every path and every
  template comes to the same.
-/

namespace Stencil

/-! ## Numbers -/

namespace Numeral

open DocumentNumber

/-- A natural number is signed where it fits. -/
theorem ofDocument_natural (n : UInt64) :
    ofDocument (.natural n) =
      if n ≤ Int64.maxValue.toUInt64 then .signed n.toInt64 else .unsigned n := by
  unfold ofDocument asSigned?
  by_cases h : n ≤ Int64.maxValue.toUInt64
  · simp only [if_pos h]
  · simp only [if_neg h, asUnsigned?]

theorem toInt64_nonneg {n : UInt64} (h : n ≤ Int64.maxValue.toUInt64) : ¬ n.toInt64 < 0 := by
  have hfits : n.toNat ≤ 9223372036854775807 := h
  have hvalue : n.toInt64.toInt = n.toNat :=
    BitVec.toInt_eq_toNat_of_lt (x := n.toBitVec)
      (show 2 * n.toNat < 18446744073709551616 by omega)
  intro hneg
  have hlt : n.toInt64.toInt < 0 := Int64.lt_iff_toInt_lt.mp hneg
  omega

/-- A signed number stays what it is, in whichever form it is kept. -/
theorem ofDocument_signed (n : Int64) : ofDocument (.signed n) = .signed n := by
  unfold DocumentNumber.signed
  split
  · rfl
  · next h =>
    have hle : 0 ≤ n := by
      rw [Int64.le_iff_toInt_le]
      rw [Int64.lt_iff_toInt_lt] at h
      exact Int.not_lt.mp h
    have hfits : n.toUInt64 ≤ Int64.maxValue.toUInt64 := by
      rw [UInt64.le_iff_toNat_le, Int64.toNat_toUInt64_of_le hle]
      exact Nat.le_of_lt_succ n.toNatClampNeg_lt
    rw [ofDocument_natural, if_pos hfits, Int64.toInt64_toUInt64]

/-- The number that a numeral is made from. -/
def toDocument : Numeral → DocumentNumber
  | .signed n => .signed n
  | .unsigned n => .natural n
  | .binary x => .binary x

theorem toDocument_ofDocument (n : DocumentNumber) : (ofDocument n).toDocument = n := by
  cases n with
  | natural n =>
    rw [ofDocument_natural]
    split
    · next h =>
      rw [toDocument, DocumentNumber.signed, dif_neg (toInt64_nonneg h), UInt64.toUInt64_toInt64]
    · rfl
  | negative n h => exact dif_pos h
  | binary x => rfl

/-- Different numbers are different numerals: the number can be read off. -/
theorem ofDocument_injective : Function.Injective ofDocument :=
  Function.LeftInverse.injective toDocument_ofDocument

end Numeral

/-! ## What a document says -/

namespace Document

/-- The name of the kind of value that a document is. -/
def kind : Document → String
  | .null => "null"
  | .bool _ => "boolean"
  | .number _ => "number"
  | .text _ => "string"
  | .list _ => "sequence"
  | .object _ => "dictionary"

/-- The scalar that a document is, if it is one. -/
def scalar? : Document → Option Scalar
  | .bool b => some (.bool b)
  | .number n => some (.number (.ofDocument n))
  | .text s => some (.text s)
  | _ => none

/-- The fields of an object, in their order; any other document has none. -/
def fields : Document → List (String × Document)
  | .object fields => fields
  | _ => []

/-- The documents in a list. -/
def items? : Document → Option (List Document)
  | .list items => some items
  | _ => none

end Document

namespace Value

theorem ofDocuments_eq_map (ds : List Document) : ofDocuments ds = ds.map ofDocument := by
  induction ds with
  | nil => rfl
  | cons d rest ih => rw [ofDocuments, ih, List.map_cons]

theorem ofObject_eq_map (fields : List (String × Document)) :
    ofObject fields = fields.map fun e => (e.1, ofDocument e.2) := by
  induction fields with
  | nil => rfl
  | cons e rest ih => rw [ofObject, ih, List.map_cons]

/-! ## What a value answers -/

/-- A value answers everything that it can be asked as a document says.  The parts of the document
are values in their turn, and answer in the same way. -/
structure Answers (v : Value) (d : Document) : Prop where
  kind : v.kind = d.kind
  scalar : v.scalar? = d.scalar?
  entries : v.entries = d.fields.map fun e => (e.1, ofDocument e.2)
  get? : ∀ key, v.get? key = (Fields.get? key d.fields).map ofDocument
  elements : Body.elements? v = d.items?.map fun items => .list (items.map fun d => .ok (ofDocument d))

theorem answers_ofDocument (d : Document) : (ofDocument d).Answers d := by
  cases d with
  | list items =>
    refine ⟨rfl, rfl, rfl, fun _ => rfl, ?_⟩
    rw [ofDocument, ofDocuments_eq_map]
    exact congrArg (some ∘ Body.Elements.list) (List.map_map ..)
  | object fields =>
    have hentries := ofObject_eq_map fields
    refine ⟨rfl, rfl, hentries, fun key => ?_, rfl⟩
    rw [ofDocument, get?, hentries, Fields.get?_map]
    rfl
  | _ => exact ⟨rfl, rfl, rfl, fun _ => rfl, rfl⟩

/-! ## Documents, cells and rows -/

mutual

/-- The cell of a document has the value of the document. -/
theorem ofCell_ofDocument : (d : Document) → ofCell (Cell.ofDocument d) = ofDocument d
  | .null | .bool _ | .number _ | .text _ => rfl
  | .list items => congrArg Value.list (ofCellList_ofDocuments items)
  | .object fields => congrArg Value.record (ofCells_ofObject fields)

/-- So have the cells of documents. -/
theorem ofCellList_ofDocuments :
    (ds : List Document) → ofCellList (Cell.ofDocuments ds) = ofDocuments ds
  | [] => rfl
  | d :: rest => congrArg₂ List.cons (ofCell_ofDocument d) (ofCellList_ofDocuments rest)

/-- The row of an object has the values of its fields, each under its own name. -/
theorem ofCells_ofObject :
    (fields : List (String × Document)) → ofCells (Row.ofObject fields) = ofObject fields
  | [] => rfl
  | (name, d) :: rest => congrArg₂ List.cons
    (congrArg (Prod.mk name) (ofCell_ofDocument d)) (ofCells_ofObject rest)

end

theorem ofRow_ofObject (fields : List (String × Document)) :
    ofRow (Row.ofObject fields) = ofDocument (.object fields) :=
  congrArg Value.record (ofCells_ofObject fields)

end Value

/-! ## Documents that a sequence gives -/

/-- A sequence that still gives these objects, each as a row. -/
def Streams.Delivers (id : Nat) (objects : List (List (String × Document))) (S : Streams) : Prop :=
  S.streams[id]? = some (.items ⟨objects.map Row.ofObject, false⟩)

/-- A sequence gives its first object, and still has the others. -/
theorem Streams.Delivers.next {id : Nat} {fields : List (String × Document)}
    {later : List (List (String × Document))} {S : Streams} (h : S.Delivers id (fields :: later)) :
    (S.next id).1 = .ok (some (Row.ofObject fields)) ∧ (S.next id).2.Delivers id later := by
  have hlt : id < S.streams.length := (List.getElem?_eq_some_iff.mp h).1
  unfold Streams.next Streams.request
  rw [Delivers] at h
  rw [h]
  exact ⟨rfl, List.getElem?_set_self hlt⟩

namespace Value

/-- A document is the same value on every way in which it becomes one. -/
structure AdaptsAlike (d : Document) : Prop where
  answers : (ofDocument d).Answers d
  cell : ofCell (Cell.ofDocument d) = ofDocument d
  row : ∀ fields, d = .object fields → ofRow (Row.ofObject fields) = ofDocument d
  /-- A section over a sequence that gives the object has its value for an element. -/
  delivered : ∀ fields, d = .object fields → ∀ {σ : Type} (s : State σ) (id : Nat)
    (later : List (List (String × Document))), s.streams.Delivers id (fields :: later) →
      ∃ T, (Body.Elements.stream id).next s =
          (.ok (some (.ok (ofDocument d)), .stream id), { s with streams := T }) ∧
        T.Delivers id later
  lookup : ∀ path, (ofCell (Cell.ofDocument d)).lookup path = (ofDocument d).lookup path
  write : ∀ {σ : Type} [Sink σ] (t : Template) (o : RenderOptions) (start : Rendered σ),
    t.write o (ofCell (Cell.ofDocument d)) start = t.write o (ofDocument d) start

/-- **A document is the same value on every way.** -/
theorem adaptsAlike (d : Document) : AdaptsAlike d where
  answers := answers_ofDocument d
  cell := ofCell_ofDocument d
  row := by
    rintro fields rfl
    exact ofRow_ofObject fields
  delivered := by
    rintro fields rfl σ s id later h
    obtain ⟨hrow, hlater⟩ := h.next
    refine ⟨(s.streams.next id).2, ?_, hlater⟩
    have hnext : (Body.Elements.stream id).next s =
        (.ok (some (.ok (ofRow (Row.ofObject fields))), .stream id),
          { s with streams := (s.streams.next id).2 }) := by
      show (Run.request (Streams.next id) >>= _) s = _
      rw [Run.bind_apply]
      dsimp only [Run.request]
      rw [hrow]
      rfl
    rw [hnext, ofRow_ofObject]
  lookup := fun path => congrArg (Value.lookup path) (ofCell_ofDocument d)
  write := fun t o start => congrArg (t.write o · start) (ofCell_ofDocument d)

end Value

end Stencil
