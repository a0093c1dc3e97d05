import Stencil.Text.Cut

/-!
# Laws of cutting

The pieces of a text, with the separators between them, are the text.

- `splitOnce_eq_some`, `splitLast_eq_some`: the two parts around the first and the last separator;
- `splitAt_eq`: the first piece ends at the first separator, and all pieces are put together again;
- `splitAt_append_cons`: the first separator cuts off a piece;
- `mem_tail_splitAt`: every other piece stands behind a separator and ends at the next one;
- `lines_flatMap`: lines with their ends are cut where they end;
- `lines_append_cons`, `lines_behind`: the first line, and the lines behind a line feed;
- `takeWhile_append_of_head`: the longest start of a text that has a property.
-/

namespace Stencil.Text

variable {sep : Char} {s a b : List Char}

/-! ## The first and the last separator -/

theorem splitOnce_eq_none : splitOnce sep s = none ↔ sep ∉ s := by
  induction s with
  | nil => simp [splitOnce]
  | cons c rest ih =>
    rw [splitOnce, List.mem_cons, not_or]
    by_cases hc : c = sep
    · simp [hc]
    · rw [if_neg hc, Option.map_eq_none_iff, ih]
      simp [Ne.symm hc]

/-- The first part holds no separator. -/
theorem splitOnce_eq_some :
    splitOnce sep s = some (a, b) ↔ s = a ++ sep :: b ∧ sep ∉ a := by
  induction s generalizing a with
  | nil => simp [splitOnce]
  | cons c rest ih =>
    rw [splitOnce]
    by_cases hc : c = sep
    · rw [if_pos hc, hc]
      cases a with
      | nil => simp [eq_comm]
      | cons d a =>
        simp only [Option.some.injEq, Prod.mk.injEq, List.cons_append, List.cons.injEq,
          List.mem_cons, not_or]
        exact ⟨fun h => (List.cons_ne_nil _ _ h.1.symm).elim, fun h => absurd h.1.1 h.2.1⟩
    · rw [if_neg hc]
      cases a with
      | nil => simp [hc]
      | cons d a =>
        simp only [Option.map_eq_some_iff, Prod.exists, Prod.mk.injEq, List.cons.injEq,
          List.cons_append, List.mem_cons, not_or]
        constructor
        · rintro ⟨a', b', h, ⟨rfl, rfl⟩, rfl⟩
          obtain ⟨rfl, ha⟩ := ih.mp h
          exact ⟨⟨rfl, rfl⟩, Ne.symm hc, ha⟩
        · rintro ⟨⟨rfl, rfl⟩, -, ha⟩
          exact ⟨a, b, ih.mpr ⟨rfl, ha⟩, ⟨rfl, rfl⟩, rfl⟩

theorem splitLast_eq_none : splitLast sep s = none ↔ sep ∉ s := by
  rw [splitLast, Option.map_eq_none_iff, splitOnce_eq_none, List.mem_reverse]

/-- The second part holds no separator. -/
theorem splitLast_eq_some :
    splitLast sep s = some (a, b) ↔ s = a ++ sep :: b ∧ sep ∉ b := by
  simp only [splitLast, Option.map_eq_some_iff, Prod.exists, Prod.mk.injEq]
  constructor
  · rintro ⟨after, before, h, rfl, rfl⟩
    obtain ⟨hs, hafter⟩ := splitOnce_eq_some.mp h
    refine ⟨?_, fun hm => hafter (List.mem_reverse.mp hm)⟩
    rw [← List.reverse_reverse s, hs]
    simp
  · rintro ⟨rfl, hb⟩
    refine ⟨b.reverse, a.reverse, splitOnce_eq_some.mpr ⟨by simp, ?_⟩, by simp, by simp⟩
    exact fun hm => hb (List.mem_reverse.mp hm)

/-! ## All separators -/

/-- A text without separators stands in front of the first one. -/
theorem takeWhile_append (ha : sep ∉ a) (b : List Char) :
    (a ++ b).takeWhile (· ≠ sep) = a ++ b.takeWhile (· ≠ sep) := by
  refine List.takeWhile_append_of_pos fun c hc => decide_eq_true ?_
  rintro rfl
  exact ha hc

theorem takeWhile_of_not_mem (h : sep ∉ s) : s.takeWhile (· ≠ sep) = s := by
  have all := takeWhile_append h []
  rwa [List.append_nil, List.takeWhile_nil, List.append_nil] at all

theorem takeWhile_append_cons (ha : sep ∉ a) (b : List Char) :
    (a ++ sep :: b).takeWhile (· ≠ sep) = a := by
  rw [takeWhile_append ha, List.takeWhile_cons_of_neg (by simp), List.append_nil]

theorem dropWhile_append_cons (ha : sep ∉ a) (b : List Char) :
    (a ++ sep :: b).dropWhile (· ≠ sep) = sep :: b := by
  rw [List.dropWhile_append_of_pos, List.dropWhile_cons_of_neg (by simp)]
  intro c hc
  refine decide_eq_true ?_
  rintro rfl
  exact ha hc

/-- The first piece ends at the first separator, and each piece behind it follows a separator. -/
theorem splitAt_eq (sep : Char) (s : List Char) :
    ∃ pieces, splitAt sep s = s.takeWhile (· ≠ sep) :: pieces ∧
      s = s.takeWhile (· ≠ sep) ++ pieces.flatMap (sep :: ·) := by
  induction s with
  | nil => exact ⟨[], rfl, rfl⟩
  | cons c rest ih =>
    obtain ⟨pieces, hsplit, hrest⟩ := ih
    rw [splitAt]
    by_cases hc : c = sep
    · refine ⟨splitAt sep rest, ?_, ?_⟩
      · simp [hc]
      · rw [hsplit, List.flatMap_cons, List.cons_append, ← hrest]
        simp [hc]
    · refine ⟨pieces, ?_, ?_⟩
      · rw [if_neg hc, hsplit]
        simp [hc]
      · rw [List.takeWhile_cons_of_pos (by simp [hc]), List.cons_append, ← hrest]

theorem splitAt_ne_nil (sep : Char) (s : List Char) : splitAt sep s ≠ [] := by
  intro h
  have hlength := length_splitAt sep s
  rw [h] at hlength
  cases hlength

theorem splitAt_of_not_mem (h : sep ∉ s) : splitAt sep s = [s] := by
  obtain ⟨pieces, hsplit, -⟩ := splitAt_eq sep s
  have hlength := length_splitAt sep s
  rw [List.count_eq_zero_of_not_mem h, hsplit, List.length_cons] at hlength
  obtain rfl := List.length_eq_zero_iff.mp (Nat.succ.inj hlength)
  rw [hsplit, takeWhile_of_not_mem h]

theorem splitAt_append_cons (ha : sep ∉ a) (b : List Char) :
    splitAt sep (a ++ sep :: b) = a :: splitAt sep b := by
  induction a with
  | nil => exact if_pos rfl
  | cons c a ih =>
    obtain ⟨hc, hrest⟩ := List.ne_and_not_mem_of_not_mem_cons ha
    rw [List.cons_append, splitAt, if_neg (Ne.symm hc), ih hrest]

/-- A separator stands between the pieces in front of it and those behind it. -/
theorem splitAt_append (a b : List Char) :
    splitAt sep (a ++ sep :: b) = splitAt sep a ++ splitAt sep b := by
  induction a with
  | nil => exact if_pos rfl
  | cons c a ih =>
    rw [List.cons_append, splitAt, splitAt, ih]
    by_cases hc : c = sep
    · simp [hc]
    · obtain ⟨pieces, hsplit, -⟩ := splitAt_eq sep a
      simp [hc, hsplit]

/-- A piece behind the first one starts at a separator and ends at the next one. -/
theorem mem_tail_splitAt {piece : List Char} :
    piece ∈ (splitAt sep s).tail ↔
      ∃ before behind, s = before ++ sep :: behind ∧ piece = behind.takeWhile (· ≠ sep) := by
  induction s with
  | nil => simp [splitAt]
  | cons c rest ih =>
    obtain ⟨pieces, hsplit, -⟩ := splitAt_eq sep rest
    rw [hsplit, List.tail_cons] at ih
    -- the pieces behind separators further on are those of the rest
    have later : (∃ before behind, rest = before ++ sep :: behind ∧
        piece = behind.takeWhile (· ≠ sep)) ↔ ∃ before behind, before ≠ [] ∧
          c :: rest = before ++ sep :: behind ∧ piece = behind.takeWhile (· ≠ sep) := by
      constructor
      · rintro ⟨before, behind, rfl, rfl⟩
        exact ⟨c :: before, behind, List.cons_ne_nil _ _, rfl, rfl⟩
      · rintro ⟨before, behind, hne, heq, rfl⟩
        obtain ⟨d, before, rfl⟩ := List.exists_cons_of_ne_nil hne
        exact ⟨before, behind, (List.cons.inj heq).2, rfl⟩
    rw [splitAt]
    by_cases hc : c = sep
    · rw [if_pos hc, List.tail_cons, hsplit, List.mem_cons, ih, later]
      constructor
      · rintro (rfl | ⟨before, behind, -, h⟩)
        · exact ⟨[], rest, by rw [hc]; rfl, rfl⟩
        · exact ⟨before, behind, h⟩
      · rintro ⟨before, behind, heq, hp⟩
        cases before with
        | nil =>
          rw [(List.cons.inj heq).2]
          exact .inl hp
        | cons d before => exact .inr ⟨d :: before, behind, List.cons_ne_nil _ _, heq, hp⟩
    · rw [if_neg hc, hsplit]
      show piece ∈ pieces ↔ _
      rw [ih, later]
      constructor
      · rintro ⟨before, behind, -, h⟩
        exact ⟨before, behind, h⟩
      · rintro ⟨before, behind, heq, hp⟩
        refine ⟨before, behind, ?_, heq, hp⟩
        rintro rfl
        exact hc (List.cons.inj heq).1

/-! ## Lines -/

theorem withoutReturn_concat (s : List Char) (c : Char) :
    withoutReturn (s ++ [c]) = if c = '\r' then s else s ++ [c] := by
  by_cases hc : c = '\r'
  · subst hc
    simp [withoutReturn]
  · rw [if_neg hc]
    unfold withoutReturn
    split
    · next rest hreverse =>
      rw [List.reverse_append] at hreverse
      exact absurd (List.cons.inj hreverse).1 hc
    · rfl

/-- What is dropped stands behind every other character. -/
theorem withoutReturn_append_cons {c : Char} (hc : c ≠ '\r') (a b : List Char) :
    withoutReturn (a ++ c :: b) = a ++ c :: withoutReturn b := by
  rcases List.eq_nil_or_concat b with rfl | ⟨b, d, rfl⟩
  · rw [withoutReturn_concat, if_neg hc]
    rfl
  · rw [List.concat_eq_append, ← List.cons_append, ← List.append_assoc, withoutReturn_concat,
      withoutReturn_concat]
    split
    · rfl
    · rw [List.append_assoc, List.cons_append]

theorem withoutReturn_of_not_mem (h : '\r' ∉ s) : withoutReturn s = s := by
  rcases List.eq_nil_or_concat s with rfl | ⟨s, d, rfl⟩
  · rfl
  · rw [List.concat_eq_append] at h ⊢
    rw [withoutReturn_concat, if_neg]
    rintro rfl
    exact h (List.mem_append_right _ (List.mem_singleton_self _))

theorem mem_of_mem_withoutReturn {c : Char} (h : c ∈ withoutReturn s) : c ∈ s := by
  rcases List.eq_nil_or_concat s with rfl | ⟨s, d, rfl⟩
  · exact h
  · rw [List.concat_eq_append] at h ⊢
    rw [withoutReturn_concat] at h
    split at h
    · exact List.mem_append_left _ h
    · exact h

/-- Lines that each end at a line feed, and what stands behind the last of them. -/
theorem lines_flatMap {raws : List (List Char)} {last : List Char}
    (h : ∀ raw ∈ raws, '\n' ∉ raw) (hlast : '\n' ∉ last) :
    lines (raws.flatMap (· ++ ['\n']) ++ last) =
      raws.map withoutReturn ++ if last.isEmpty then [] else [last] := by
  have hsplit : splitAt '\n' (raws.flatMap (· ++ ['\n']) ++ last) = raws ++ [last] := by
    induction raws with
    | nil => exact splitAt_of_not_mem hlast
    | cons raw raws ih =>
      rw [List.flatMap_cons, List.append_assoc, List.append_assoc, List.singleton_append,
        splitAt_append_cons (h raw (List.mem_cons_self ..)),
        ih fun r hr => h r (List.mem_cons_of_mem _ hr), List.cons_append]
  unfold lines
  simp only [hsplit, List.dropLast_concat, List.getLast?_concat, Option.getD_some]

/-- Pieces in front of a line feed are lines, whatever follows it. -/
theorem lines_behind (a b : List Char) :
    lines (a ++ '\n' :: b) = (splitAt '\n' a).map withoutReturn ++ lines b := by
  obtain ⟨pieces, hsplit, -⟩ := splitAt_eq '\n' b
  unfold lines
  simp only [splitAt_append, hsplit, List.dropLast_append_cons, List.getLast?_append,
    List.getLast?_cons, Option.some_or, List.map_append, List.append_assoc]

/-- The first line ends at the first line feed. -/
theorem lines_append_cons (ha : '\n' ∉ a) (b : List Char) :
    lines (a ++ '\n' :: b) = withoutReturn a :: lines b := by
  rw [lines_behind, splitAt_of_not_mem ha]
  rfl

/-- A text without line feeds is one line, unless it is empty. -/
theorem lines_of_not_mem (h : '\n' ∉ s) (hne : s ≠ []) : lines s = [s] := by
  have one := @lines_flatMap [] s nofun h
  rwa [if_neg (by simpa using hne)] at one

/-! ## Longest starts -/

/-- A text is cut where the first character stands that does not satisfy `p`. -/
theorem takeWhile_append_of_head {p : Char → Bool} (ha : ∀ c ∈ a, p c = true)
    (hb : ∀ c ∈ b.head?, p c = false) : (a ++ b).takeWhile p = a ∧ (a ++ b).dropWhile p = b := by
  rw [List.takeWhile_append_of_pos ha, List.dropWhile_append_of_pos ha]
  cases b with
  | nil => simp
  | cons c b =>
    have hc : p c = false := hb c rfl
    simp [hc]

theorem of_mem_head?_dropWhile {p : Char → Bool} {c : Char} (h : c ∈ (s.dropWhile p).head?) :
    p c = false := by
  have hnot := List.head?_dropWhile_not p s
  rwa [Option.mem_def.mp h] at hnot

theorem of_mem_takeWhile {p : Char → Bool} {c : Char} (h : c ∈ s.takeWhile p) : p c = true :=
  List.all_eq_true.mp List.all_takeWhile c h

end Stencil.Text
