/-!
# Fields in order of first arrival

Dictionaries keep their entries in the order in which the keys first arrived: writing to a key that
is present replaces its value in place, and a new key goes to the end, as `indexmap` documents it.

* `Fields.put`: writes one entry;
* `Fields.ofList`: writes entries one after the other;
* `Fields.get?`: the value of a key.
-/

namespace Stencil.Fields

variable {α : Type}

/-- The value of a key. -/
def get? (key : String) : List (String × α) → Option α
  | [] => none
  | (k, v) :: rest => if k = key then some v else get? key rest

/-- Writes a value under a key: in the place of the key, or at the end. -/
def put (key : String) (value : α) : List (String × α) → List (String × α)
  | [] => [(key, value)]
  | (k, v) :: rest => if k = key then (k, value) :: rest else (k, v) :: put key value rest

/-- Writes entries one after the other. -/
def ofList (entries : List (String × α)) : List (String × α) :=
  entries.foldl (fun fields (k, v) => put k v fields) []

theorem get?_put_self (key : String) (value : α) (fields : List (String × α)) :
    get? key (put key value fields) = some value := by
  induction fields with
  | nil => simp [put, get?]
  | cons e rest ih =>
    obtain ⟨k, v⟩ := e
    by_cases h : k = key <;> simp [put, get?, h, ih]

theorem get?_put_of_ne {key other : String} (h : other ≠ key) (value : α)
    (fields : List (String × α)) : get? other (put key value fields) = get? other fields := by
  induction fields with
  | nil => simp [put, get?, Ne.symm h]
  | cons e rest ih =>
    obtain ⟨k, v⟩ := e
    by_cases hk : k = key
    · subst hk; simp [put, get?, Ne.symm h]
    · simp [put, hk, get?, ih]

/-- A list of entries gives every key the last value that has been written under it. -/
theorem get?_ofList (key : String) (entries : List (String × α)) :
    get? key (ofList entries) = entries.reverse.lookup key := by
  rw [ofList, ← List.foldr_reverse]
  induction entries.reverse with
  | nil => rfl
  | cons e rest ih =>
    obtain ⟨k, v⟩ := e
    rw [List.foldr_cons, List.lookup_cons]
    by_cases h : key = k
    · subst h
      rw [get?_put_self, beq_self_eq_true]
    · rw [get?_put_of_ne h, ih, beq_false_of_ne h]

theorem keys_put (key : String) (value : α) (fields : List (String × α)) :
    (put key value fields).map (·.1) =
      if key ∈ fields.map (·.1) then fields.map (·.1) else fields.map (·.1) ++ [key] := by
  induction fields with
  | nil => simp [put]
  | cons e rest ih =>
    obtain ⟨k, v⟩ := e
    by_cases h : k = key
    · simp [put, h]
    · simp only [put, if_neg h, List.map_cons, ih, List.mem_cons, Ne.symm h, false_or]
      split <;> rfl

/-- A list of entries has each of its keys once, in the order in which they came. -/
theorem keys_ofList (entries : List (String × α)) :
    (ofList entries).map (·.1) = (entries.map (·.1)).eraseDups := by
  rw [ofList, ← List.foldr_reverse, ← List.reverse_reverse (entries.map (·.1)), ← List.map_reverse]
  induction entries.reverse with
  | nil => rfl
  | cons e rest ih =>
    rw [List.foldr_cons, keys_put, ih, List.map_cons, List.reverse_cons, List.eraseDups_append]
    by_cases h : e.1 ∈ (rest.map (·.1)).reverse
    · rw [if_pos (List.mem_eraseDups.mpr h)]
      simp [List.removeAll, List.mem_reverse.mp h]
    · rw [if_neg (mt List.mem_eraseDups.mp h)]
      simp [List.removeAll, List.eraseDups_cons, mt List.mem_reverse.mpr h]

end Stencil.Fields
