import Stencil.Data.Fields

/-!
# Entries of dictionaries

- `Fields.mem_put`, `Fields.mem_of_ofList`, `Fields.mem_of_get?`: where an entry comes from;
- `Fields.get?_ofList_of_last`: the last entry that has been written under a key is the one that
  stays;
- `Fields.nodup_ofList`, `Fields.get?_of_mem`: no key is there twice, so that an entry is what its
  key gives;
- `Fields.ofList_of_nodup`: entries of different keys are all there, in their order;
- `Fields.get?_map`, `Fields.map_put`: the entries with other values;
- `Fields.get?_without`: the entries without a key.
-/

namespace Stencil.Fields

variable {α β : Type}

/-! ## Entries -/

theorem mem_put {key : String} {value : α} {fields : List (String × α)} {e : String × α}
    (h : e ∈ put key value fields) : e = (key, value) ∨ e ∈ fields := by
  induction fields with
  | nil => exact .inl (List.mem_singleton.mp h)
  | cons first rest ih =>
    obtain ⟨k, v⟩ := first
    rw [put] at h
    by_cases hk : k = key
    · rw [if_pos hk, hk] at h
      rcases List.mem_cons.mp h with rfl | h
      · exact .inl rfl
      · exact .inr (List.mem_cons_of_mem _ h)
    · rw [if_neg hk] at h
      rcases List.mem_cons.mp h with rfl | h
      · exact .inr (List.mem_cons_self ..)
      · exact (ih h).imp_right (List.mem_cons_of_mem _)

theorem mem_of_ofList {entries : List (String × α)} {e : String × α} (h : e ∈ ofList entries) :
    e ∈ entries := by
  rw [ofList, ← List.foldr_reverse] at h
  rw [← List.mem_reverse]
  generalize entries.reverse = written at h ⊢
  induction written with
  | nil => exact h
  | cons first rest ih =>
    rw [List.foldr_cons] at h
    rcases mem_put h with rfl | h
    · exact List.mem_cons_self ..
    · exact List.mem_cons_of_mem _ (ih h)

/-! ## Different keys -/

theorem nodup_put (key : String) (value : α) {fields : List (String × α)}
    (h : (fields.map (·.1)).Nodup) : ((put key value fields).map (·.1)).Nodup := by
  rw [keys_put]
  split
  · exact h
  · next hnew =>
    refine List.nodup_append.mpr ⟨h, List.nodup_cons.mpr ⟨List.not_mem_nil, List.nodup_nil⟩, ?_⟩
    intro k hk other hother heq
    exact hnew (List.mem_singleton.mp hother ▸ heq ▸ hk)

theorem nodup_ofList (entries : List (String × α)) : ((ofList entries).map (·.1)).Nodup := by
  rw [ofList, ← List.foldr_reverse]
  induction entries.reverse with
  | nil => exact List.nodup_nil
  | cons e rest ih => exact nodup_put e.1 e.2 ih

theorem put_of_not_mem {key : String} (value : α) {fields : List (String × α)}
    (h : key ∉ fields.map (·.1)) : put key value fields = fields ++ [(key, value)] := by
  induction fields with
  | nil => rfl
  | cons e rest ih =>
    obtain ⟨k, v⟩ := e
    obtain ⟨hk, hrest⟩ := List.ne_and_not_mem_of_not_mem_cons h
    rw [put, if_neg hk.symm, ih hrest]
    rfl

theorem foldl_put_of_nodup {fields entries : List (String × α)}
    (h : ((fields ++ entries).map (·.1)).Nodup) :
    entries.foldl (fun fields (k, v) => put k v fields) fields = fields ++ entries := by
  induction entries generalizing fields with
  | nil => exact (List.append_nil fields).symm
  | cons e rest ih =>
    obtain ⟨k, v⟩ := e
    have hnew : k ∉ fields.map (·.1) := by
      rw [List.map_append] at h
      intro hmem
      exact (List.nodup_append.mp h).2.2 k hmem k List.mem_cons_self rfl
    rw [List.append_cons] at h ⊢
    rw [← ih h, ← put_of_not_mem v hnew]
    rfl

/-- Entries of different keys are all there, in their order. -/
theorem ofList_of_nodup {entries : List (String × α)} (h : (entries.map (·.1)).Nodup) :
    ofList entries = entries :=
  foldl_put_of_nodup h

/-! ## Values of keys -/

/-- Where no key is there twice, an entry is what its key gives. -/
theorem get?_of_mem {key : String} {value : α} {fields : List (String × α)}
    (h : (fields.map (·.1)).Nodup) (hmem : (key, value) ∈ fields) :
    get? key fields = some value := by
  induction fields with
  | nil => cases hmem
  | cons first rest ih =>
    obtain ⟨k, v⟩ := first
    obtain ⟨hfresh, hrest⟩ := List.nodup_cons.mp h
    rw [get?]
    rcases List.mem_cons.mp hmem with heq | hmem
    · obtain ⟨rfl, rfl⟩ := Prod.mk.inj heq
      exact if_pos rfl
    · have hother : k ≠ key := by
        rintro rfl
        exact hfresh (List.mem_map.mpr ⟨_, hmem, rfl⟩)
      rw [if_neg hother, ih hrest hmem]

theorem mem_of_get? {key : String} {fields : List (String × α)} {value : α}
    (h : get? key fields = some value) : (key, value) ∈ fields := by
  induction fields with
  | nil => cases h
  | cons e rest ih =>
    obtain ⟨k, v⟩ := e
    rw [get?] at h
    by_cases hk : k = key
    · rw [if_pos hk] at h
      rw [← hk, ← Option.some.inj h]
      exact List.mem_cons_self ..
    · rw [if_neg hk] at h
      exact List.mem_cons_of_mem _ (ih h)

theorem get?_map (f : α → β) (key : String) (fields : List (String × α)) :
    get? key (fields.map fun e => (e.1, f e.2)) = (get? key fields).map f := by
  induction fields with
  | nil => rfl
  | cons first rest ih =>
    obtain ⟨k, v⟩ := first
    rw [List.map_cons, get?, get?, ih]
    split <;> rfl

theorem map_put (f : α → β) (key : String) (value : α) (fields : List (String × α)) :
    (put key value fields).map (fun e => (e.1, f e.2)) =
      put key (f value) (fields.map fun e => (e.1, f e.2)) := by
  induction fields with
  | nil => rfl
  | cons first rest ih =>
    obtain ⟨k, v⟩ := first
    rw [List.map_cons, put, put]
    split
    · rfl
    · rw [List.map_cons, ih]

theorem get?_without (key other : String) (fields : List (String × α)) :
    get? other (fields.filter (·.1 ≠ key)) = if other = key then none else get? other fields := by
  induction fields with
  | nil => rw [List.filter_nil, get?, ite_self]
  | cons first rest ih =>
    obtain ⟨k, v⟩ := first
    by_cases hk : k = key
    · rw [List.filter_cons_of_neg (by simpa using hk), ih, get?]
      by_cases ho : other = key
      · rw [if_pos ho, if_pos ho]
      · rw [if_neg ho, if_neg ho, if_neg (fun heq => ho (heq.symm.trans hk))]
    · rw [List.filter_cons_of_pos (by simpa using hk), get?, get?, ih]
      by_cases ho : other = key
      · rw [if_pos ho, if_pos ho, if_neg (fun heq => hk (heq.trans ho))]
      · rw [if_neg ho, if_neg ho]

/-- The last entry that has been written under a key is the one that stays. -/
theorem get?_ofList_of_last {key : String} (value : α) {before after : List (String × α)}
    (h : ∀ e ∈ after, e.1 ≠ key) :
    get? key (ofList (before ++ (key, value) :: after)) = some value := by
  have hafter : after.reverse.lookup key = none := by
    refine List.lookup_eq_none_iff.mpr fun e he => ?_
    simpa using (h e (List.mem_reverse.mp he)).symm
  rw [get?_ofList, List.reverse_append, List.reverse_cons, List.append_assoc, List.lookup_append,
    hafter, Option.none_or]
  exact List.lookup_cons_self

end Stencil.Fields
