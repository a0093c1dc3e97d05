import Stencil.Proofs.Render.Meaning

/-!
# Sequences as lists

A single-pass sequence stands in a value by its number.  Put a list of its elements in its place, and
the value answers every path as before, with the list where it had the sequence.

- `Value.materialise`: the list in place of the sequence, wherever it stands;
- `Value.lookup_materialise`: **paths lead to the same places**;
- `Value.materialise_of_isMultiPass`: a value without sequences stays what it is, and so does that of
  a row (`Value.isMultiPass_ofRow`).
-/

namespace Stencil

namespace Value

mutual

/-- A value with a list in place of a single-pass sequence. -/
def materialise (id : Nat) (items : List Value) : Value → Value
  | .null => .null
  | .scalar s => .scalar s
  | .record fields => .record (materialiseFields id items fields)
  | .element e => .element e
  | .own v => .own (materialise id items v)
  | .list values => .list (materialiseAll id items values)
  | .series values => .series (materialiseSeries id items values)
  | .stream n => if n = id then .list items else .stream n

/-- The fields of a record with the list in place of the sequence. -/
def materialiseFields (id : Nat) (items : List Value) :
    List (String × Value) → List (String × Value)
  | [] => []
  | (name, v) :: rest => (name, materialise id items v) :: materialiseFields id items rest

/-- The elements of a list with the list in place of the sequence. -/
def materialiseAll (id : Nat) (items : List Value) : List Value → List Value
  | [] => []
  | v :: rest => materialise id items v :: materialiseAll id items rest

/-- The elements of a series with the list in place of the sequence. -/
def materialiseSeries (id : Nat) (items : List Value) :
    List (Except DataError Value) → List (Except DataError Value)
  | [] => []
  | .ok v :: rest => .ok (materialise id items v) :: materialiseSeries id items rest
  | .error e :: rest => .error e :: materialiseSeries id items rest

end

variable {id : Nat} {items : List Value}

theorem materialiseAll_eq_map (values : List Value) :
    materialiseAll id items values = values.map (materialise id items) := by
  induction values with
  | nil => rw [materialiseAll, List.map_nil]
  | cons v rest ih => rw [materialiseAll, ih, List.map_cons]

theorem materialiseSeries_eq_map (values : List (Except DataError Value)) :
    materialiseSeries id items values = values.map (Except.map (materialise id items)) := by
  induction values with
  | nil => rw [materialiseSeries, List.map_nil]
  | cons v rest ih => cases v <;> rw [materialiseSeries, ih, List.map_cons] <;> rfl

@[simp] theorem materialise_self : materialise id items (.stream id) = .list items := by
  rw [materialise, if_pos rfl]

theorem materialise_stream {n : Nat} (h : n ≠ id) : materialise id items (.stream n) = .stream n := by
  rw [materialise, if_neg h]

@[simp] theorem materialise_list (values : List Value) :
    materialise id items (.list values) = .list (values.map (materialise id items)) := by
  rw [materialise, materialiseAll_eq_map]

@[simp] theorem materialise_series (values : List (Except DataError Value)) :
    materialise id items (.series values) =
      .series (values.map (Except.map (materialise id items))) := by
  rw [materialise, materialiseSeries_eq_map]

@[simp] theorem materialise_own (v : Value) :
    materialise id items (.own v) = .own (v.materialise id items) := by rw [materialise]

@[simp] theorem materialise_null : materialise id items .null = .null := by rw [materialise]

@[simp] theorem materialise_scalar (s : Scalar) :
    materialise id items (.scalar s) = .scalar s := by rw [materialise]

/-! ## Values without sequences -/

mutual

/-- A value without sequences stays what it is. -/
theorem materialise_of_isMultiPass : (v : Value) → v.isMultiPass → v.materialise id items = v
  | .null, _ => materialise_null
  | .scalar s, _ => materialise_scalar s
  | .record fields, h => by
    rw [isMultiPass] at h
    rw [materialise, materialiseFields_of_areMultiPass fields h]
  | .element e, _ => by rw [materialise]
  | .own v, h => by
    rw [isMultiPass] at h
    rw [materialise, materialise_of_isMultiPass v h]
  | .list values, h => by
    rw [isMultiPass] at h
    rw [materialise, materialiseAll_of_allMultiPass values h]
  | .series values, h => by
    rw [isMultiPass] at h
    rw [materialise, materialiseSeries_of_seriesMultiPass values h]
  | .stream _, h => by
    rw [isMultiPass] at h
    cases h

/-- The fields of a record without sequences. -/
theorem materialiseFields_of_areMultiPass : (fields : List (String × Value)) →
    areMultiPass fields → materialiseFields id items fields = fields
  | [], _ => by rw [materialiseFields]
  | (name, v) :: rest, h => by
    rw [areMultiPass, Bool.and_eq_true] at h
    rw [materialiseFields, materialise_of_isMultiPass v h.1,
      materialiseFields_of_areMultiPass rest h.2]

/-- The elements of a list without sequences. -/
theorem materialiseAll_of_allMultiPass : (values : List Value) →
    allMultiPass values → materialiseAll id items values = values
  | [], _ => by rw [materialiseAll]
  | v :: rest, h => by
    rw [allMultiPass, Bool.and_eq_true] at h
    rw [materialiseAll, materialise_of_isMultiPass v h.1, materialiseAll_of_allMultiPass rest h.2]

/-- The elements of a series without sequences. -/
theorem materialiseSeries_of_seriesMultiPass : (values : List (Except DataError Value)) →
    seriesMultiPass values → materialiseSeries id items values = values
  | [], _ => by rw [materialiseSeries]
  | .ok v :: rest, h => by
    rw [seriesMultiPass, Bool.and_eq_true] at h
    rw [materialiseSeries, materialise_of_isMultiPass v h.1,
      materialiseSeries_of_seriesMultiPass rest h.2]
  | .error e :: rest, h => by
    rw [seriesMultiPass] at h
    rw [materialiseSeries, materialiseSeries_of_seriesMultiPass rest h]

end

mutual

/-- There are no sequences in the value of a cell. -/
theorem isMultiPass_ofCell : (cell : Cell) → (ofCell cell).isMultiPass
  | .null => by rw [ofCell, isMultiPass]
  | .scalar s => by rw [ofCell, isMultiPass]
  | .nested cells => by
    rw [ofCell, isMultiPass]
    exact areMultiPass_ofCells cells
  | .list cells => by
    rw [ofCell, isMultiPass]
    exact allMultiPass_ofCellList cells

/-- There are none in the values of named cells. -/
theorem areMultiPass_ofCells : (cells : List (String × Cell)) → areMultiPass (ofCells cells)
  | [] => by rw [ofCells, areMultiPass]
  | (name, cell) :: rest => by
    rw [ofCells, areMultiPass, Bool.and_eq_true]
    exact ⟨isMultiPass_ofCell cell, areMultiPass_ofCells rest⟩

/-- There are none in the values of cells. -/
theorem allMultiPass_ofCellList : (cells : List Cell) → allMultiPass (ofCellList cells)
  | [] => by rw [ofCellList, allMultiPass]
  | cell :: rest => by
    rw [ofCellList, allMultiPass, Bool.and_eq_true]
    exact ⟨isMultiPass_ofCell cell, allMultiPass_ofCellList rest⟩

end

theorem isMultiPass_ofRow (row : Row) : (ofRow row).isMultiPass := by
  rw [ofRow, isMultiPass]
  exact areMultiPass_ofCells row

/-! ## Looking up -/

theorem isNull_materialise (v : Value) : (v.materialise id items).isNull = v.isNull := by
  cases v with
  | stream n =>
    rw [materialise]
    split <;> rfl
  | _ => simp only [materialise, isNull]

theorem isDictionary_materialise (v : Value) :
    (v.materialise id items).isDictionary = v.isDictionary := by
  cases v with
  | stream n =>
    rw [materialise]
    split <;> rfl
  | _ => simp only [materialise, isDictionary]

theorem asDictionary_materialise (v : Value) :
    (v.materialise id items).asDictionary = v.asDictionary.materialise id items := by
  unfold asDictionary
  rw [isDictionary_materialise]
  split
  · rfl
  · rw [materialise_own]

theorem get?_materialiseFields (key : String) (fields : List (String × Value)) :
    Fields.get? key (materialiseFields id items fields) =
      (Fields.get? key fields).map (materialise id items) := by
  induction fields with
  | nil => rw [materialiseFields]; rfl
  | cons e rest ih =>
    obtain ⟨name, v⟩ := e
    rw [materialiseFields, Fields.get?, Fields.get?, ih]
    split <;> rfl

/-- An element has no sequences, nor has what it answers. -/
theorem get?_materialise (key : String) (v : Value) :
    (v.materialise id items).get? key = (v.get? key).map (materialise id items) := by
  cases v with
  | record fields =>
    rw [materialise]
    exact get?_materialiseFields key fields
  | element e =>
    rw [materialise]
    cases hget : (element e).get? key with
    | none => rfl
    | some found =>
      rw [Option.map_some, materialise_of_isMultiPass found (isMultiPass_of_elementGet? hget)]
  | own v =>
    rw [materialise_own, get?, get?]
    split <;> rfl
  | stream n =>
    rw [materialise]
    split <;> rfl
  | _ => rw [materialise]; rfl

/-- **Paths lead to the same places**, and to the list in place of the sequence. -/
theorem lookup_materialise (path : List String) (v : Value) :
    (v.materialise id items).lookup path = (v.lookup path).map (materialise id items) := by
  induction path generalizing v with
  | nil => rfl
  | cons key path ih =>
    rw [lookup_cons, lookup_cons, get?_materialise]
    cases v.get? key with
    | none => rfl
    | some inner => exact ih inner

end Value

end Stencil
