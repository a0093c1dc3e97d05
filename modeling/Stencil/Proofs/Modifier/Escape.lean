import Stencil.Modifier.Escape

/-!
# What escaped text is free of

An escaper writes for each character either the character itself, which then means nothing in the
format, or a sequence that stands for it.

- `Escape.Harmless`: no tag starts or ends in a text, and no attribute value;
- `Escape.Referenced`: every ampersand of a text starts a reference to an entity;
- `Escape.harmless_markup`, `Escape.referenced_markup`: **both hold of every escaped text**.
-/

namespace Stencil.Escape

/-- A text in which no tag and no attribute value starts or ends. -/
def Harmless (text : List Char) : Prop := ∀ c ∈ text, c ≠ '<' ∧ c ≠ '>' ∧ c ≠ '"'

instance (text : List Char) : Decidable (Harmless text) := List.decidableBAll _ text

/-- The references that are written for characters. -/
def references : List (List Char) :=
  ["&lt;".toList, "&gt;".toList, "&amp;".toList, "&quot;".toList]

/-- A text in which every ampersand starts a reference. -/
def Referenced (text : List Char) : Prop :=
  ∀ rest, '&' :: rest <:+ text → ∃ r ∈ references, r <+: '&' :: rest

theorem Harmless.append {s t : List Char} (hs : Harmless s) (ht : Harmless t) :
    Harmless (s ++ t) := by
  intro c hc
  rcases List.mem_append.mp hc with hc | hc
  · exact hs c hc
  · exact ht c hc

/-- A reference is harmless, and has no ampersand but the one that it starts with. -/
theorem of_mem_references : ∀ r ∈ references, Harmless r ∧ r.head? = some '&' ∧ '&' ∉ r.tail := by
  decide +kernel

/-- A character stands for itself, unless a reference is written for it. -/
theorem markupChar_spec (c : Char) :
    markupChar c ∈ references ∨ markupChar c = [c] ∧ Harmless [c] ∧ c ≠ '&' := by
  by_cases hlt : c = '<'
  · rw [hlt]
    exact .inl (by decide)
  by_cases hgt : c = '>'
  · rw [hgt]
    exact .inl (by decide)
  by_cases hamp : c = '&'
  · rw [hamp]
    exact .inl (by decide)
  by_cases hquot : c = '"'
  · rw [hquot]
    exact .inl (by decide)
  refine .inr ⟨?_, ?_, hamp⟩
  · unfold markupChar
    split
    · exact absurd rfl hlt
    · exact absurd rfl hgt
    · exact absurd rfl hamp
    · exact absurd rfl hquot
    · rfl
  · intro d hd
    rw [List.mem_singleton.mp hd]
    exact ⟨hlt, hgt, hquot⟩

theorem toList_markup (s : String) : (markup s).toList = s.toList.flatMap markupChar :=
  String.toList_ofList

/-- **An escaped text is harmless.** -/
theorem harmless_markup (s : String) : Harmless (markup s).toList := by
  rw [toList_markup]
  intro c hc
  obtain ⟨d, -, hd⟩ := List.mem_flatMap.mp hc
  rcases markupChar_spec d with hr | ⟨hself, hd', -⟩
  · exact (of_mem_references _ hr).1 c hd
  · rw [hself] at hd
    exact hd' c hd

/-- What starts with a character that is not in front starts behind it. -/
theorem suffix_of_not_mem {a : Char} {rest front text : List Char}
    (h : a :: rest <:+ front ++ text) (ha : a ∉ front) : a :: rest <:+ text := by
  induction front with
  | nil => exact h
  | cons b front ih =>
    rcases List.suffix_cons_iff.mp h with heq | h
    · rw [(List.cons.inj heq).1] at ha
      exact absurd (List.mem_cons_self ..) ha
    · exact ih h fun hm => ha (List.mem_cons_of_mem _ hm)

theorem referenced_append {r text : List Char} (hr : r ∈ references) (h : Referenced text) :
    Referenced (r ++ text) := by
  obtain ⟨-, hhead, htail⟩ := of_mem_references r hr
  obtain ⟨tail, rfl⟩ := List.head?_eq_some_iff.mp hhead
  intro rest hs
  rcases List.suffix_cons_iff.mp hs with heq | hs
  · rw [heq]
    exact ⟨_, hr, List.prefix_append _ _⟩
  · exact h rest (suffix_of_not_mem hs htail)

/-- **Every ampersand of an escaped text starts a reference**, by induction on the text. -/
theorem referenced_markup (s : String) : Referenced (markup s).toList := by
  rw [toList_markup]
  induction s.toList with
  | nil =>
    intro rest hs
    cases List.suffix_nil.mp hs
  | cons c cs ih =>
    rw [List.flatMap_cons]
    rcases markupChar_spec c with hr | ⟨hself, -, hc⟩
    · exact referenced_append hr ih
    · rw [hself]
      intro rest hs
      exact ih rest (suffix_of_not_mem hs fun hm => hc (List.mem_singleton.mp hm).symm)

end Stencil.Escape
