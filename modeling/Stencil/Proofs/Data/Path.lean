import Stencil.Proofs.Data.Fields
import Stencil.Proofs.Text.Cut
import Stencil.Proofs.Value.Lookup
import Mathlib.Data.List.Induction
import Mathlib.Data.List.Nodup
import Mathlib.Data.List.Pairwise

/-!
# Cells under paths

A column label with points is a path, and a row is read by paths as well.  Writing a cell under a
path is seen there, below it, and in the nested rows that lead to it, and nowhere else.

- `Row.written`: the cell that takes the place of another one when something is written below it,
  by which `Row.insertSteps` is one recursion (`Row.insertSteps_cons`);
- `Row.lookup_written`, `Row.lookup_written_unrelated`, `Row.lookup_written_within`: what is read
  at the path, beside it, and on the way to it;
- `Row.Inserted`: the laws of one written cell;
- `Row.Spread`: what is read in a row whose columns have unrelated labels, one column after the
  other (`Row.Spread.insertPath`);
- `Row.insertPath_laws`: **every written cell keeps the laws, and the order of columns with
  unrelated labels does not matter**.
-/

namespace Stencil

/-! ## Following paths -/

namespace Value

theorem ofCells_eq_map (cells : Row) : ofCells cells = cells.map fun e => (e.1, ofCell e.2) := by
  induction cells with
  | nil => rfl
  | cons e rest ih => rw [ofCells, ih, List.map_cons]

theorem ofCells_put (key : String) (cell : Cell) (cells : Row) :
    ofCells (Fields.put key cell cells) = Fields.put key (ofCell cell) (ofCells cells) := by
  rw [ofCells_eq_map, ofCells_eq_map, Fields.map_put]

theorem get?_ofRow (key : String) (row : Row) :
    (ofRow row).get? key = (Fields.get? key row).map ofCell := by
  rw [ofRow, get?, ofCells_eq_map, Fields.get?_map]

/-- The entries of the dictionary that a path leads to; none when it leads to none. -/
def entriesAt (path : List String) (v : Option Value) : List (String × Value) :=
  ((v.bind (lookup path)).map entries).getD []

end Value

namespace Row

/-! ## Writing a cell -/

/-- The cell that stands in the place of another one when a cell is written below it. -/
def written (steps : List String) (cell : Cell) (old : Option Cell) : Cell :=
  match steps with
  | [] => cell
  | _ :: _ => .nested (insertSteps steps cell (Cell.inner old))

theorem insertSteps_cons (step : String) (steps : List String) (cell : Cell) (row : Row) :
    insertSteps (step :: steps) cell row =
      Fields.put step (written steps cell (Fields.get? step row)) row := by
  cases steps with
  | nil => rfl
  | cons next steps => rfl

/-- A cell reads as the row inside it: what is no nested row has no keys. -/
theorem lookup_inner {path : List String} (h : path ≠ []) (old : Option Cell) :
    (Value.ofRow (Cell.inner old)).lookup path =
      (old.map Value.ofCell).bind (Value.lookup path) := by
  obtain ⟨key, path, rfl⟩ := List.exists_cons_of_ne_nil h
  cases old with
  | none => rw [Value.lookup_cons]; rfl
  | some cell =>
    cases cell with
    | nested cells => rfl
    | null | scalar | list =>
      rw [Option.map_some, Option.bind_some, Value.lookup_cons, Value.lookup_cons]
      rfl

theorem entries_inner (old : Option Cell) :
    Value.ofCells (Cell.inner old) = Value.entriesAt [] (old.map Value.ofCell) := by
  cases old with
  | none => rfl
  | some cell => cases cell <;> rfl

theorem entriesAt_cons (key : String) (path : List String) (old : Option Cell) :
    Value.entriesAt (key :: path) (old.map Value.ofCell) =
      Value.entriesAt path ((Fields.get? key (Cell.inner old)).map Value.ofCell) := by
  rw [Value.entriesAt, Value.entriesAt, ← lookup_inner (List.cons_ne_nil key path),
    Value.lookup_cons, Value.get?_ofRow]

/-- At its path, a written cell is read. -/
theorem lookup_written (steps : List String) (cell : Cell) (old : Option Cell) :
    (Value.ofCell (written steps cell old)).lookup steps = some (.ofCell cell) := by
  induction steps generalizing old with
  | nil => rfl
  | cons step steps ih =>
    change (Value.ofRow (insertSteps _ _ _)).lookup _ = _
    rw [insertSteps_cons, Value.lookup_cons, Value.get?_ofRow, Fields.get?_put_self]
    exact ih _

/-- Beside its path, what was there before is read. -/
theorem lookup_written_unrelated {steps path : List String} (cell : Cell) (old : Option Cell)
    (hbefore : ¬ path <+: steps) (hbehind : ¬ steps <+: path) :
    (Value.ofCell (written steps cell old)).lookup path =
      (old.map Value.ofCell).bind (Value.lookup path) := by
  induction steps generalizing path old with
  | nil => exact absurd List.nil_prefix hbehind
  | cons step steps ih =>
    cases path with
    | nil => exact absurd List.nil_prefix hbefore
    | cons key path =>
      rw [← lookup_inner (List.cons_ne_nil key path)]
      change (Value.ofRow (insertSteps _ _ _)).lookup _ = _
      rw [insertSteps_cons, Value.lookup_cons, Value.lookup_cons, Value.get?_ofRow,
        Value.get?_ofRow]
      by_cases hkey : key = step
      · subst hkey
        rw [List.cons_prefix_cons] at hbefore hbehind
        rw [Fields.get?_put_self]
        exact ih _ (fun h => hbefore ⟨rfl, h⟩) (fun h => hbehind ⟨rfl, h⟩)
      · rw [Fields.get?_put_of_ne hkey]

/-- On the way to its path, the nested row has got the next step written, and all else is left. -/
theorem lookup_written_within {steps path : List String} {step : String} (cell : Cell)
    (old : Option Cell) (h : path ++ [step] <+: steps) :
    ∃ v, (Value.ofCell (written steps cell old)).lookup path =
      some (.record (Fields.put step v (Value.entriesAt path (old.map Value.ofCell)))) := by
  induction path generalizing steps old with
  | nil =>
    obtain ⟨rest, rfl⟩ := h
    refine ⟨.ofCell (written rest cell (Fields.get? step (Cell.inner old))), ?_⟩
    change some (Value.ofRow (insertSteps (step :: rest) _ _)) = _
    rw [insertSteps_cons, Value.ofRow, Value.ofCells_put, ← entries_inner]
  | cons key path ih =>
    cases steps with
    | nil => cases List.prefix_nil.mp h
    | cons first steps =>
      rw [List.cons_append, List.cons_prefix_cons] at h
      obtain ⟨rfl, h⟩ := h
      rw [entriesAt_cons]
      change ∃ v, (Value.ofRow (insertSteps (key :: steps) _ _)).lookup _ = _
      rw [insertSteps_cons, Value.lookup_cons, Value.get?_ofRow, Fields.get?_put_self]
      exact ih _ h

/-! ## The laws of one cell -/

/-- Two paths neither of which leads on from the other. -/
def Unrelated (path path' : List String) : Prop := ¬ path <+: path' ∧ ¬ path' <+: path

theorem Unrelated.symm {path path' : List String} (h : Unrelated path path') :
    Unrelated path' path := ⟨h.2, h.1⟩

/-- What it means that a row is another one with a cell written under the steps of a path. -/
structure Inserted (steps : List String) (cell : Cell) (before after : Row) : Prop where
  /-- The path leads to the cell. -/
  found : (Value.ofRow after).lookup steps = some (.ofCell cell)
  /-- A longer path leads to what its further steps lead to inside the cell. -/
  beyond : ∀ path, path ≠ [] →
    (Value.ofRow after).lookup (steps ++ path) = (Value.ofCell cell).lookup path
  /-- An unrelated path leads to where it led before. -/
  beside : ∀ path, Unrelated path steps →
    (Value.ofRow after).lookup path = (Value.ofRow before).lookup path
  /-- On the way there are dictionaries.  Each has the keys of the dictionary that stood there, in
  their order, with the next step behind them if it is new, and its other values. -/
  within : ∀ path step, path ++ [step] <+: steps → ∃ entries,
    let old := Value.entriesAt path (some (.ofRow before))
    (Value.ofRow after).lookup path = some (.record entries) ∧
      entries.map (·.1) =
        (if step ∈ old.map (·.1) then old.map (·.1) else old.map (·.1) ++ [step]) ∧
      ∀ key, key ≠ step → Fields.get? key entries = Fields.get? key old

theorem stepsOf_ne_nil (label : String) : stepsOf label ≠ [] :=
  mt List.map_eq_nil_iff.mp (Text.splitAt_ne_nil '.' label.toList)

theorem insertPath_inserted (label : String) (cell : Cell) (row : Row) :
    Inserted (stepsOf label) cell row (row.insertPath label cell) := by
  obtain ⟨step, steps, hsteps⟩ := List.exists_cons_of_ne_nil (stepsOf_ne_nil label)
  have hrow : Value.ofRow (row.insertPath label cell) =
      Value.ofCell (written (stepsOf label) cell (some (.nested row))) := by
    rw [insertPath, hsteps]
    rfl
  refine ⟨?_, fun path _ => ?_, fun path h => ?_, fun path next h => ?_⟩
  · rw [hrow, lookup_written]
  · rw [hrow, Value.lookup_append, lookup_written, Option.bind_some]
  · rw [hrow, lookup_written_unrelated cell _ h.1 h.2]
    rfl
  · obtain ⟨v, hv⟩ := lookup_written_within cell (some (.nested row)) h
    refine ⟨_, hrow ▸ hv, Fields.keys_put .., fun key hkey => Fields.get?_put_of_ne hkey ..⟩

/-! ## Columns with unrelated labels -/

/-- Two columns whose labels are unrelated paths. -/
def UnrelatedLabels (e e' : String × Cell) : Prop := Unrelated (stepsOf e.1) (stepsOf e'.1)

instance : Std.Symm UnrelatedLabels := ⟨fun _ _ h => h.symm⟩

instance : DecidableRel UnrelatedLabels := fun e e' =>
  inferInstanceAs (Decidable (¬ stepsOf e.1 <+: stepsOf e'.1 ∧ ¬ stepsOf e'.1 <+: stepsOf e.1))

/-- What is read in a row of labelled cells whose labels are unrelated. -/
structure Spread (cells : List (String × Cell)) (row : Row) : Prop where
  /-- Each label leads to its own cell. -/
  found : ∀ e ∈ cells, (Value.ofRow row).lookup (stepsOf e.1) = some (.ofCell e.2)
  /-- A path that is unrelated to all labels leads nowhere. -/
  beside : ∀ path, (∀ e ∈ cells, Unrelated path (stepsOf e.1)) →
    (Value.ofRow row).lookup path = (Value.ofRow []).lookup path
  /-- On the way to labels there are dictionaries, with the next steps as their keys. -/
  within : ∀ path, (∀ e ∈ cells, ¬ stepsOf e.1 <+: path) →
    (∃ e ∈ cells, path <+: stepsOf e.1) → ∃ entries,
      (Value.ofRow row).lookup path = some (.record entries) ∧ (entries.map (·.1)).Nodup ∧
        ∀ step, step ∈ entries.map (·.1) ↔ ∃ e ∈ cells, path ++ [step] <+: stepsOf e.1

/-- A prefix of a path that is not the whole path leads on with a further step. -/
theorem exists_step {path steps : List String} (h : path <+: steps) (hne : ¬ steps <+: path) :
    ∃ step, path ++ [step] <+: steps := by
  obtain ⟨rest, rfl⟩ := h
  cases rest with
  | nil =>
    rw [List.append_nil] at hne
    exact absurd List.prefix_rfl hne
  | cons step rest => exact ⟨step, rest, by rw [List.append_assoc, List.singleton_append]⟩

/-- A path leads on with one further step at most. -/
theorem step_unique {path steps : List String} {step step' : String}
    (h : path ++ [step] <+: steps) (h' : path ++ [step'] <+: steps) : step = step' := by
  have hsame := List.prefix_of_prefix_length_le h h' (by simp)
  obtain ⟨rest, hrest⟩ := hsame
  rw [List.append_assoc, List.append_cancel_left_eq] at hrest
  exact (List.cons.inj hrest).1

theorem spread_nil : Spread [] [] where
  found := fun _ he => nomatch he
  beside := fun _ _ => rfl
  within := fun _ _ h => nomatch h

/-- The keys at a path that has not passed a label are the next steps of the labels, each once. -/
theorem Spread.keys_entriesAt {cells : List (String × Cell)} {row : Row} (h : Spread cells row)
    {path : List String} (hpath : ∀ e ∈ cells, ¬ stepsOf e.1 <+: path) :
    ((Value.entriesAt path (some (.ofRow row))).map (·.1)).Nodup ∧
      ∀ step, step ∈ (Value.entriesAt path (some (.ofRow row))).map (·.1) ↔
        ∃ e ∈ cells, path ++ [step] <+: stepsOf e.1 := by
  by_cases hleads : ∃ e ∈ cells, path <+: stepsOf e.1
  · obtain ⟨entries, hlookup, hkeys⟩ := h.within path hpath hleads
    have hentries : Value.entriesAt path (some (.ofRow row)) = entries := by
      rw [Value.entriesAt, Option.bind_some, hlookup]
      rfl
    rw [hentries]
    exact hkeys
  · have hlookup := h.beside path fun e he => ⟨fun hpre => hleads ⟨e, he, hpre⟩, hpath e he⟩
    have hentries : Value.entriesAt path (some (.ofRow row)) = [] := by
      rw [Value.entriesAt, Option.bind_some, hlookup]
      cases path with
      | nil => rfl
      | cons key path => rw [Value.lookup_cons]; rfl
    rw [hentries]
    refine ⟨List.nodup_nil, fun step => ⟨List.not_mem_nil.elim, fun ⟨e, he, hpre⟩ => ?_⟩⟩
    exact absurd ⟨e, he, (List.prefix_append path [step]).trans hpre⟩ hleads

/-- One more column. -/
theorem Spread.insertPath {cells : List (String × Cell)} {row : Row} (h : Spread cells row)
    {label : String} (cell : Cell)
    (hlabel : ∀ e ∈ cells, Unrelated (stepsOf e.1) (stepsOf label)) :
    Spread (cells ++ [(label, cell)]) (row.insertPath label cell) := by
  have hinserted := insertPath_inserted label cell row
  refine ⟨fun e he => ?_, fun path hpath => ?_, fun path hbefore hleads => ?_⟩
  · rcases List.mem_append.mp he with he | he
    · rw [hinserted.beside _ (hlabel e he), h.found e he]
    · rw [List.mem_singleton.mp he, hinserted.found]
  · rw [List.forall_mem_append] at hpath
    rw [hinserted.beside _ (hpath.2 _ (List.mem_singleton_self _)), h.beside _ hpath.1]
  · rw [List.forall_mem_append] at hbefore
    have hbehind : ¬ stepsOf label <+: path := hbefore.2 _ (List.mem_singleton_self _)
    have hnext : ∀ step, (∃ e ∈ cells ++ [(label, cell)], path ++ [step] <+: stepsOf e.1) ↔
        (∃ e ∈ cells, path ++ [step] <+: stepsOf e.1) ∨ path ++ [step] <+: stepsOf label := by
      intro step
      simp only [List.mem_append, List.mem_singleton, or_and_right, exists_or, exists_eq_left]
    by_cases hpre : path <+: stepsOf label
    · -- The dictionary here gets the next step of the label.
      obtain ⟨next, hstep⟩ := exists_step hpre hbehind
      obtain ⟨entries, hlookup, hkeys, -⟩ := hinserted.within path next hstep
      obtain ⟨hnodup, hmem⟩ := h.keys_entriesAt hbefore.1
      have hlast : ∀ step, path ++ [step] <+: stepsOf label ↔ step = next :=
        fun step => ⟨fun h => step_unique h hstep, fun h => h ▸ hstep⟩
      refine ⟨entries, hlookup, ?_, fun step => ?_⟩
      · rw [hkeys]
        split
        · exact hnodup
        · next hnew =>
          rw [← List.concat_eq_append]
          exact hnodup.concat hnew
      · rw [hnext, hlast, ← hmem, hkeys]
        split
        · next hold => exact ⟨.inl, fun h => h.elim id fun h => h ▸ hold⟩
        · rw [List.mem_append, List.mem_singleton]
    · -- The dictionary here is left as it is.
      have hleads : ∃ e ∈ cells, path <+: stepsOf e.1 := by
        obtain ⟨e, he, hleads⟩ := hleads
        rcases List.mem_append.mp he with he | he
        · exact ⟨e, he, hleads⟩
        · cases List.mem_singleton.mp he
          exact absurd hleads hpre
      obtain ⟨entries, hlookup, hnodup, hmem⟩ := h.within path hbefore.1 hleads
      refine ⟨entries, (hinserted.beside path ⟨hpre, hbehind⟩).trans hlookup, hnodup,
        fun step => ?_⟩
      rw [hnext, hmem, or_iff_left]
      exact fun hstep => hpre ((List.prefix_append path [step]).trans hstep)

theorem spread_ofPairs {cells : List (String × Cell)}
    (h : cells.Pairwise UnrelatedLabels) : Spread cells (ofPairs cells) := by
  induction cells using List.reverseRecOn with
  | nil => exact spread_nil
  | append_singleton cells e ih =>
    obtain ⟨hcells, -, hlabel⟩ := List.pairwise_append.mp h
    rw [ofPairs, List.foldl_append]
    exact (ih hcells).insertPath e.2 fun e' he' => hlabel e' he' e (List.mem_singleton_self e)

/-- What it means that two rows read the same, except for the order of keys on the way to the labels
of columns. -/
structure SameLookups (cells : List (String × Cell)) (row row' : Row) : Prop where
  /-- A path that is no proper part of the path of a label leads to the same value. -/
  same : ∀ path, (∀ e ∈ cells, path <+: stepsOf e.1 → path = stepsOf e.1) →
    (Value.ofRow row).lookup path = (Value.ofRow row').lookup path
  /-- A proper part leads to dictionaries with the same keys. -/
  within : ∀ path, (∃ e ∈ cells, path <+: stepsOf e.1 ∧ path ≠ stepsOf e.1) →
    ∃ entries entries', (Value.ofRow row).lookup path = some (.record entries) ∧
      (Value.ofRow row').lookup path = some (.record entries') ∧
      (entries.map (·.1)).Perm (entries'.map (·.1))

theorem Spread.sameLookups {cells cells' : List (String × Cell)} {row row' : Row}
    (h : Spread cells row) (h' : Spread cells' row') (hperm : cells'.Perm cells)
    (hpairwise : cells.Pairwise UnrelatedLabels) :
    SameLookups cells row row' := by
  refine ⟨fun path hpath => ?_, fun path hpath => ?_⟩
  · by_cases hlabel : ∃ e ∈ cells, stepsOf e.1 <+: path
    · obtain ⟨e, he, rest, rfl⟩ := hlabel
      rw [Value.lookup_append, Value.lookup_append, h.found e he,
        h'.found e (hperm.mem_iff.mpr he)]
    · have hunrelated : ∀ e ∈ cells, Unrelated path (stepsOf e.1) := fun e he =>
        ⟨fun hpre => hlabel ⟨e, he, (hpath e he hpre) ▸ List.prefix_rfl⟩,
          fun hpre => hlabel ⟨e, he, hpre⟩⟩
      rw [h.beside path hunrelated,
        h'.beside path fun e he => hunrelated e (hperm.mem_iff.mp he)]
  · obtain ⟨e, he, hpre, hne⟩ := hpath
    have hbefore : ∀ e' ∈ cells, ¬ stepsOf e'.1 <+: path := by
      intro e' he' hpre'
      by_cases hsame : e' = e
      · rw [hsame] at hpre'
        exact hne (hpre.eq_of_length_le hpre'.length_le)
      · have hunrelated := hpairwise.forall he' he hsame
        exact hunrelated.1 (hpre'.trans hpre)
    obtain ⟨entries, hlookup, hnodup, hmem⟩ := h.within path hbefore ⟨e, he, hpre⟩
    obtain ⟨entries', hlookup', hnodup', hmem'⟩ := h'.within path
      (fun e' he' => hbefore e' (hperm.mem_iff.mp he')) ⟨e, hperm.mem_iff.mpr he, hpre⟩
    refine ⟨entries, entries', hlookup, hlookup',
      (List.perm_ext_iff_of_nodup hnodup hnodup').mpr fun step => ?_⟩
    rw [hmem, hmem']
    simp only [hperm.mem_iff]

/-- **Every written cell keeps the laws of paths.  Columns with unrelated labels can be read by
them, and can come in any order.** -/
theorem insertPath_laws :
    (∀ (label : String) (cell : Cell) (row : Row),
      Inserted (stepsOf label) cell row (row.insertPath label cell)) ∧
    ∀ cells : List (String × Cell), cells.Pairwise UnrelatedLabels →
      (∀ e ∈ cells, (Value.ofRow (ofPairs cells)).lookup (stepsOf e.1) = some (.ofCell e.2)) ∧
      ∀ cells' : List (String × Cell), cells'.Perm cells →
        SameLookups cells (ofPairs cells) (ofPairs cells') := by
  refine ⟨insertPath_inserted, fun cells h => ?_⟩
  have hspread := spread_ofPairs h
  refine ⟨hspread.found, fun cells' hperm => hspread.sameLookups (spread_ofPairs ?_) hperm h⟩
  exact hperm.symm.pairwise h fun hrelated => hrelated.symm

theorem insertPath_laws_columns :
    (Value.ofRow (ofPairs [("b.c", .null), ("a", .scalar (.text "x")), ("b.", .list [])])).lookup
        ["b", "c"] = some .null ∧
      SameLookups [("b.c", .null), ("a", .scalar (.text "x")), ("b.", .list [])]
        (ofPairs [("b.c", .null), ("a", .scalar (.text "x")), ("b.", .list [])])
        (ofPairs [("b.", .list []), ("b.c", .null), ("a", .scalar (.text "x"))]) := by
  obtain ⟨hfound, hsame⟩ := insertPath_laws.2
    [("b.c", .null), ("a", .scalar (.text "x")), ("b.", .list [])] (by decide +kernel)
  have hperm := (List.perm_append_singleton ("b.", Cell.list [])
    [("b.c", Cell.null), ("a", .scalar (.text "x"))]).symm
  exact ⟨hfound ("b.c", .null) (List.mem_cons_self ..), hsame _ hperm⟩

end Row

end Stencil
