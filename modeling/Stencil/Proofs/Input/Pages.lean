import Stencil.Input.Pages

/-!
# Pages hold a list of characters

Pages that are built by adding characters have one shape: full pages, and behind them a page with
the rest when there is one (`Pages.Regular`).  In that shape the character at an index is the one
that the list of all characters has there (`Pages.get?_eq`), and an index below the count names a
page that exists and a place inside it (`Pages.Regular.place`).
-/

namespace Stencil

namespace Pages

/-- Full pages, and behind them a page with the rest when there is one. -/
def Regular (p : Pages) : Prop :=
  ∃ (full : Array (Array Char)) (rest : Array Char),
    (∀ page ∈ full, page.size = pageSize) ∧ rest.size < pageSize ∧
      p.count = full.size * pageSize + rest.size ∧
        p.pages = if rest.size = 0 then full else full.push rest

theorem pageSize_pos : 0 < pageSize := by decide

theorem regular_empty : Regular empty :=
  ⟨#[], #[], fun _ h => (Array.not_mem_empty _ h).elim, pageSize_pos, rfl, rfl⟩

/-! ## Adding a character -/

/-- The page that takes the next character is the last one of these. -/
theorem modify_push (full : Array (Array Char)) (rest : Array Char) (c : Char) :
    (full.push rest).modify ((full.push rest).size - 1) (·.push c) = full.push (rest.push c) := by
  apply Array.ext
  · simp
  · intro i h₁ h₂
    simp only [Array.getElem_modify, Array.size_push, Nat.add_sub_cancel]
    by_cases hi : i = full.size
    · subst hi
      simp
    · have hlt : i < full.size := by
        simp only [Array.size_push] at h₂
        omega
      rw [if_neg (Ne.symm hi), Array.getElem_push_lt hlt, Array.getElem_push_lt hlt]

/-- Whether or not a new page is begun, the character goes behind the rest. -/
theorem push_eq {p : Pages} {full : Array (Array Char)} {rest : Array Char}
    (hr : rest.size < pageSize) (hc : p.count = full.size * pageSize + rest.size)
    (hp : p.pages = if rest.size = 0 then full else full.push rest) (c : Char) :
    p.push c = ⟨full.push (rest.push c), p.count + 1⟩ := by
  have hmod : p.count % pageSize = rest.size := by
    rw [hc, Nat.mul_comm, Nat.mul_add_mod, Nat.mod_eq_of_lt hr]
  simp only [push, hmod]
  by_cases h : rest.size = 0
  · rw [if_pos h] at hp
    have hrest : rest = #[] := Array.eq_empty_of_size_eq_zero h
    simp only [if_pos h, hp]
    rw [← hrest, modify_push]
  · rw [if_neg h] at hp
    simp only [if_neg h, hp]
    rw [modify_push]

theorem Regular.push {p : Pages} (h : p.Regular) (c : Char) : (p.push c).Regular := by
  obtain ⟨full, rest, hf, hr, hc, hp⟩ := h
  rw [push_eq hr hc hp c]
  by_cases hs : rest.size + 1 = pageSize
  · -- the rest has become a full page
    refine ⟨full.push (rest.push c), #[], fun page hpage => ?_, pageSize_pos, ?_, rfl⟩
    · rcases Array.mem_push.mp hpage with hpage | rfl
      · exact hf page hpage
      · rw [Array.size_push, hs]
    · show p.count + 1 = (full.push (rest.push c)).size * pageSize + 0
      rw [hc, Array.size_push, Nat.add_one_mul, Nat.add_assoc, hs, Nat.add_zero]
  · refine ⟨full, rest.push c, hf, ?_, ?_, ?_⟩
    · rw [Array.size_push]
      omega
    · show p.count + 1 = _
      rw [hc, Array.size_push, Nat.add_assoc]
    · rw [if_neg (by rw [Array.size_push]; omega)]

theorem toList_push {p : Pages} (h : p.Regular) (c : Char) :
    (p.push c).toList = p.toList ++ [c] := by
  obtain ⟨full, rest, hf, hr, hc, hp⟩ := h
  rw [push_eq hr hc hp c, toList, toList, hp]
  by_cases hs : rest.size = 0
  · have hrest : rest = #[] := Array.eq_empty_of_size_eq_zero hs
    rw [if_pos hs, hrest]
    simp
  · rw [if_neg hs]
    simp

theorem Regular.foldl_push {p : Pages} (h : p.Regular) :
    ∀ cs : List Char, (cs.foldl Pages.push p).Regular ∧
      (cs.foldl Pages.push p).toList = p.toList ++ cs := by
  intro cs
  induction cs generalizing p with
  | nil => exact ⟨h, (List.append_nil _).symm⟩
  | cons c cs ih =>
    obtain ⟨hreg, hlist⟩ := ih (h.push c)
    refine ⟨hreg, ?_⟩
    rw [List.foldl_cons, hlist, toList_push h, List.append_assoc]
    rfl

/-! ## Finding a character -/

theorem length_flatMap_full :
    ∀ {full : List (Array Char)}, (∀ page ∈ full, page.size = pageSize) →
      (full.flatMap Array.toList).length = full.length * pageSize
  | [], _ => by simp
  | page :: full, h => by
    have ih := length_flatMap_full fun q hq => h q (List.mem_cons_of_mem _ hq)
    rw [List.flatMap_cons, List.length_append, Array.length_toList, h page (List.mem_cons_self ..),
      ih, List.length_cons, Nat.add_one_mul, Nat.add_comm]

theorem Regular.length_toList {p : Pages} (h : p.Regular) : p.toList.length = p.count := by
  obtain ⟨full, rest, hf, hr, hc, hp⟩ := h
  have hlen := length_flatMap_full fun page hpage => hf page (Array.mem_toList_iff.mp hpage)
  rw [toList, hp, hc]
  by_cases hs : rest.size = 0
  · rw [if_pos hs, hlen, hs, Array.length_toList, Nat.add_zero]
  · rw [if_neg hs, Array.toList_push, List.flatMap_append, List.length_append, hlen]
    simp

/-- An index below the count names a page that exists, and a place inside that page. -/
theorem Regular.place {p : Pages} (h : p.Regular) {i : Nat} (hi : i < p.count) :
    ∃ page, p.pages[i / pageSize]? = some page ∧ i % pageSize < page.size := by
  obtain ⟨full, rest, hf, hr, hc, hp⟩ := h
  have hmod : i % pageSize < pageSize := Nat.mod_lt _ pageSize_pos
  by_cases hlt : i / pageSize < full.size
  · refine ⟨full[i / pageSize], ?_, ?_⟩
    · rw [hp]
      by_cases hs : rest.size = 0
      · rw [if_pos hs, Array.getElem?_eq_getElem hlt]
      · rw [if_neg hs, Array.getElem?_push_lt hlt]
    · rw [hf _ (Array.getElem_mem hlt)]
      exact hmod
  · -- the index lies behind the full pages, so there is a rest
    have hdiv : pageSize * (i / pageSize) + i % pageSize = i := Nat.div_add_mod i pageSize
    have hle : full.size * pageSize ≤ pageSize * (i / pageSize) := by
      rw [Nat.mul_comm]
      exact Nat.mul_le_mul_left _ (Nat.le_of_not_lt hlt)
    have heq : i / pageSize = full.size := by
      refine Nat.le_antisymm (Nat.le_of_lt_succ ((Nat.div_lt_iff_lt_mul pageSize_pos).mpr ?_))
        (Nat.le_of_not_lt hlt)
      rw [Nat.succ_mul]
      omega
    refine ⟨rest, ?_, by rw [heq, Nat.mul_comm] at hdiv; omega⟩
    rw [hp, if_neg (by rw [heq, Nat.mul_comm] at hdiv; omega), heq, Array.getElem?_push_size]

/-- The list of the characters of full pages and a rest, by page and place. -/
theorem getElem?_flatMap {rest : Array Char} (hr : rest.size < pageSize) :
    ∀ {full : List (Array Char)}, (∀ page ∈ full, page.size = pageSize) → ∀ i : Nat,
      ((full ++ [rest]).flatMap Array.toList)[i]? =
        ((full ++ [rest])[i / pageSize]?).bind (·[i % pageSize]?)
  | [], _, i => by
    rw [List.nil_append, List.flatMap_singleton, Array.getElem?_toList]
    by_cases hi : i < pageSize
    · rw [Nat.div_eq_of_lt hi, Nat.mod_eq_of_lt hi]
      rfl
    · have hdiv : 0 < i / pageSize := Nat.div_pos (Nat.le_of_not_lt hi) pageSize_pos
      have hlen : [rest].length ≤ i / pageSize := hdiv
      rw [List.getElem?_eq_none hlen, Array.getElem?_eq_none (by omega)]
      rfl
  | page :: full, h, i => by
    have hpage := h page (List.mem_cons_self ..)
    rw [List.cons_append, List.flatMap_cons]
    by_cases hi : i < pageSize
    · rw [List.getElem?_append_left (by rw [Array.length_toList, hpage]; exact hi),
        Array.getElem?_toList, Nat.div_eq_of_lt hi, Nat.mod_eq_of_lt hi]
      rfl
    · have hle : pageSize ≤ i := Nat.le_of_not_lt hi
      have hdiv : i / pageSize = (i - pageSize) / pageSize + 1 := by
        rw [← Nat.div_add_mod i pageSize]
        exact Nat.div_eq_sub_div pageSize_pos (by rw [Nat.div_add_mod]; exact hle)
      rw [List.getElem?_append_right (by rw [Array.length_toList, hpage]; exact hle),
        Array.length_toList, hpage,
        getElem?_flatMap hr (fun q hq => h q (List.mem_cons_of_mem _ hq)) (i - pageSize), hdiv,
        List.getElem?_cons_succ, ← Nat.mod_eq_sub_mod hle]

/-- **The pages are the list of their characters**: both have the same character at each index. -/
theorem get?_eq {p : Pages} (h : p.Regular) (i : Nat) : p.get? i = p.toList[i]? := by
  obtain ⟨full, rest, hf, hr, hc, hp⟩ := h
  have hfull : ∀ page ∈ full.toList, page.size = pageSize :=
    fun page hpage => hf page (Array.mem_toList_iff.mp hpage)
  have key := getElem?_flatMap hr hfull i
  rw [get?, toList, hp]
  by_cases hs : rest.size = 0
  · -- there is no page behind the full ones, and an empty one would hold nothing
    have hrest : rest = #[] := Array.eq_empty_of_size_eq_zero hs
    rw [if_pos hs]
    rw [hrest, List.flatMap_append] at key
    simp only [List.flatMap_singleton, List.append_nil] at key
    rw [key, ← Array.getElem?_toList]
    by_cases hlt : i / pageSize < full.toList.length
    · rw [List.getElem?_append_left hlt]
    · rw [List.getElem?_eq_none (Nat.le_of_not_lt hlt),
        List.getElem?_append_right (Nat.le_of_not_lt hlt)]
      cases i / pageSize - full.toList.length <;> rfl
  · rw [if_neg hs, ← Array.getElem?_toList, Array.toList_push, key]

end Pages

end Stencil
