import Stencil.Locale.Conventions

/-!
# Grouped digits

Grouping only puts separators between digits, so that the digits come back when the separators are
taken out again.  In every locale this can be done, since no separator is a digit or a sign.

- `filter_groupDigits`, `filter_isDigit_groupDigits`: digits are those of their groups;
- `groupDigits_eq`: the groups, a first one of up to three digits and then groups of three;
- `Locale.conventions_mem`: a locale has conventions of the table;
- `Locale.separator_apart`: its separator is no character of a number.
-/

namespace Stencil

theorem filter_groupDigits {separator : Char} {digits : List Char} (h : separator ∉ digits) :
    (groupDigits separator digits).filter (· ≠ separator) = digits := by
  induction digits with
  | nil => rfl
  | cons c rest ih =>
    obtain ⟨hc, hrest⟩ := List.ne_and_not_mem_of_not_mem_cons h
    rw [groupDigits]
    split
    · rw [List.filter_cons_of_pos (by simpa using hc.symm), List.filter_cons_of_neg (by simp),
        ih hrest]
    · rw [List.filter_cons_of_pos (by simpa using hc.symm), ih hrest]

/-- The digits of a grouped number are those that were put into groups. -/
theorem filter_isDigit_groupDigits {separator : Char} {digits : List Char}
    (hseparator : separator.isDigit = false) (h : ∀ d ∈ digits, d.isDigit = true) :
    (groupDigits separator digits).filter (·.isDigit) = digits := by
  have hapart : separator ∉ digits := fun hmem => Bool.false_ne_true (hseparator ▸ h _ hmem)
  -- the separators are among what is no digit
  have hfilter (text : List Char) :
      text.filter (·.isDigit) = (text.filter (· ≠ separator)).filter (·.isDigit) := by
    rw [List.filter_filter]
    refine List.filter_congr fun d _ => ?_
    by_cases hd : d = separator
    · simp [hd, hseparator]
    · simp [hd]
  rw [hfilter, filter_groupDigits hapart, List.filter_eq_self.mpr h]

/-- What it means that digits are put into groups: `first` has one to three of them, and each group
behind it has three. -/
structure Groups (digits first : List Char) (rest : List (List Char)) : Prop where
  flatten_eq : (first :: rest).flatten = digits
  first_ne_nil : first ≠ []
  length_first_le : first.length ≤ 3
  length_eq_three : ∀ g ∈ rest, g.length = 3

namespace Groups

variable {digits first : List Char} {rest : List (List Char)}

/-- Whatever the first group leaves over is a multiple of three. -/
theorem length_eq (h : Groups digits first rest) :
    digits.length = first.length + rest.length * 3 := by
  have hrest : (rest.map List.length).sum = rest.length * 3 := by
    rw [List.map_congr_left h.length_eq_three, List.map_const', List.sum_replicate_nat]
  rw [← h.flatten_eq, List.flatten_cons, List.length_append, List.length_flatten, hrest]

/-- A digit in front of full groups is a group of its own. -/
theorem alone (h : Groups digits first rest) (hfull : digits.length % 3 = 0) (c : Char) :
    Groups (c :: digits) [c] (first :: rest) where
  flatten_eq := congrArg (c :: ·) h.flatten_eq
  first_ne_nil := List.cons_ne_nil _ _
  length_first_le := show 1 ≤ 3 by decide
  length_eq_three := by
    have hlength := h.length_eq
    have hle := h.length_first_le
    have hpos := List.length_pos_iff.mpr h.first_ne_nil
    exact List.forall_mem_cons.mpr ⟨by omega, h.length_eq_three⟩

/-- A digit in front of a group that is not full belongs to that group. -/
theorem joined (h : Groups digits first rest) (hopen : digits.length % 3 ≠ 0) (c : Char) :
    Groups (c :: digits) (c :: first) rest where
  flatten_eq := congrArg (c :: ·) h.flatten_eq
  first_ne_nil := List.cons_ne_nil _ _
  length_first_le := by
    have hlength := h.length_eq
    have hle := h.length_first_le
    rw [List.length_cons]
    omega
  length_eq_three := h.length_eq_three

end Groups

/-- Grouped digits are their groups with separators between them. -/
theorem groupDigits_eq (separator : Char) {digits : List Char} (h : digits ≠ []) :
    ∃ first rest, Groups digits first rest ∧
      groupDigits separator digits = [separator].intercalate (first :: rest) := by
  induction digits with
  | nil => exact absurd rfl h
  | cons c digits ih =>
    rw [groupDigits]
    by_cases hlast : digits = []
    · subst hlast
      exact ⟨[c], [], ⟨rfl, List.cons_ne_nil _ _, show 1 ≤ 3 by decide, nofun⟩, rfl⟩
    · obtain ⟨first, rest, hgroups, htext⟩ := ih hlast
      by_cases hfull : digits.length % 3 = 0
      · refine ⟨[c], first :: rest, hgroups.alone hfull c, ?_⟩
        rw [if_pos ⟨hlast, hfull⟩, htext, List.intercalate_cons_cons]
        rfl
      · refine ⟨c :: first, rest, hgroups.joined hfull c, ?_⟩
        rw [if_neg (fun hboth => hfull hboth.2), htext]
        cases rest with
        | nil => rw [List.intercalate_singleton, List.intercalate_singleton]
        | cons second rest =>
          rw [List.intercalate_cons_cons, List.intercalate_cons_cons]
          rfl

/-- Every locale is written by the conventions of some row of the table. -/
theorem Locale.conventions_mem (l : Locale) : l.conventions ∈ conventionsTable := by
  unfold Locale.conventions
  dsimp only
  cases hexact : conventionsTable.find? (fun c => c.language = l.language ∧ some c.region = l.region)
  with
  | some c => exact List.mem_of_find?_eq_some hexact
  | none =>
    cases hlanguage : conventionsTable.find? (fun c => c.language = l.language) with
    | some c => exact List.mem_of_find?_eq_some hlanguage
    | none => exact List.mem_cons_self

/-- The separator of groups is no digit and no minus sign. -/
theorem Locale.separator_apart (l : Locale) :
    l.conventions.groupingSeparator.isDigit = false ∧ l.conventions.groupingSeparator ≠ '-' := by
  have hall : ∀ c ∈ conventionsTable,
      c.groupingSeparator.isDigit = false ∧ c.groupingSeparator ≠ '-' := by decide
  exact hall _ l.conventions_mem

end Stencil
