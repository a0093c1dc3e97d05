import Mathlib.Algebra.Group.Nat.Even
import Mathlib.Data.List.DropRight
import Mathlib.Logic.Relation
import Stencil.Proofs.Render.PropertyList

/-!
# Continued lines

A line of a property list that ends with an odd number of backslashes goes on in the next one, whose
leading blanks are dropped.  The number is that of the text joined so far, so the backslashes of a
line may stand behind those of the lines in front of it.  What has been joined when a line is reached
ends with an even number, though, and then the line alone decides.

- `isContinued_append`, `isContinued_dropLast`: the parity of backslashes, piece by piece;
- `joinLines_append`: **the invariant**: lines in front of others leave behind entries, and maybe a
  text that still goes on and does not end with an odd number of backslashes;
- `Splits`: a text, and the same text with one of its lines split in two;
- `parse_splits`: **lines can be split anywhere**, again and again.
-/

namespace Stencil.Properties

open Text

variable {s a b blanks : List Char}

/-! ## Backslashes at the end -/

theorem isContinued_eq_false_iff :
    isContinued s = false ↔ Even (s.rtakeWhile (· = '\\')).length := by
  rw [isContinued, decide_eq_false_iff_not, List.rtakeWhile, List.length_reverse, Nat.even_iff]
  omega

/-- A text behind one that does not go on decides alone whether it goes on. -/
theorem isContinued_append (h : isContinued s = false) (t : List Char) :
    isContinued (s ++ t) = isContinued t := by
  rw [isContinued, decide_eq_false_iff_not] at h
  rw [isContinued, isContinued, List.reverse_append, List.takeWhile_append]
  split
  · -- all of the text are backslashes, behind an even number of them
    next hall =>
    rw [List.length_append, hall, decide_eq_decide]
    omega
  · rfl

theorem isContinued_backslash (h : isContinued s = false) : isContinued (s ++ ['\\']) = true :=
  isContinued_append h ['\\']

/-- One backslash fewer, and the text does not go on. -/
theorem isContinued_dropLast (h : isContinued s = true) : isContinued s.dropLast = false := by
  rcases List.eq_nil_or_concat s with rfl | ⟨s, c, rfl⟩
  · rfl
  · rw [List.concat_eq_append] at h ⊢
    rw [List.dropLast_concat]
    by_cases hc : c = '\\'
    · subst hc
      simp only [isContinued, List.reverse_append, List.reverse_singleton, List.singleton_append,
        List.takeWhile_cons_of_pos, List.length_cons, decide_eq_true_eq, decide_eq_false_iff_not]
        at h ⊢
      omega
    · rw [isContinued_concat hc] at h
      cases h

theorem isContinued_blanks (h : ∀ c ∈ s, isBlank c = true) : isContinued s = false := by
  rcases List.eq_nil_or_concat s with rfl | ⟨s, c, rfl⟩
  · rfl
  · rw [List.concat_eq_append] at h ⊢
    refine isContinued_concat ?_ s
    rintro rfl
    exact absurd (h '\\' (by simp)) (by decide)

/-! ## Joined lines -/

/-- A text that still goes on when a line is reached: its last backslash has been dropped, so that
it does not end with an odd number of them. -/
def Waits (current : Option (List Char)) : Prop := ∀ text ∈ current, isContinued text = false

/-- A line with an entry, or behind the start of one, is joined with the text in front of it. -/
theorem joinLines_cons {current : Option (List Char)} {line : List Char}
    (h : current = none → isComment (trimStart line) = false) (rest : List (List Char)) :
    joinLines current (line :: rest) =
      if isContinued (current.getD [] ++ trimStart line) then
        joinLines (some (current.getD [] ++ trimStart line).dropLast) rest
      else (current.getD [] ++ trimStart line) :: joinLines none rest := by
  cases current with
  | some text => rfl
  | none =>
    rw [joinLines, h rfl]
    rfl

/-- One line leaves behind an entry, a text that goes on, or nothing. -/
theorem joinLines_step {current : Option (List Char)} (h : Waits current) (line : List Char) :
    ∃ entries next, Waits next ∧ ∀ rest,
      joinLines current (line :: rest) = entries ++ joinLines next rest := by
  by_cases hc : current = none ∧ isComment (trimStart line) = true
  · obtain ⟨rfl, hcomment⟩ := hc
    refine ⟨[], none, nofun, fun rest => ?_⟩
    rw [joinLines, if_pos hcomment]
    rfl
  · have hentry : current = none → isComment (trimStart line) = false := by
      intro hnone
      rw [← Bool.not_eq_true]
      exact fun hcomment => hc ⟨hnone, hcomment⟩
    by_cases hgoes : isContinued (current.getD [] ++ trimStart line) = true
    · refine ⟨[], some (current.getD [] ++ trimStart line).dropLast, ?_, fun rest => ?_⟩
      · rintro text ⟨⟩
        exact isContinued_dropLast hgoes
      · rw [joinLines_cons hentry, if_pos hgoes]
        rfl
    · refine ⟨[current.getD [] ++ trimStart line], none, nofun, fun rest => ?_⟩
      rw [joinLines_cons hentry, if_neg hgoes]
      rfl

/-- **What lines leave behind does not depend on what follows them**; by induction on the lines. -/
theorem joinLines_append (front : List (List Char)) :
    ∀ {current : Option (List Char)}, Waits current → ∃ entries next, Waits next ∧ ∀ rest,
      joinLines current (front ++ rest) = entries ++ joinLines next rest := by
  induction front with
  | nil => exact fun h => ⟨[], _, h, fun _ => rfl⟩
  | cons line front ih =>
    intro current h
    obtain ⟨entries, next, hnext, hline⟩ := joinLines_step h line
    obtain ⟨more, last, hlast, hfront⟩ := ih hnext
    refine ⟨entries ++ more, last, hlast, fun rest => ?_⟩
    rw [List.cons_append, hline, hfront, List.append_assoc]

/-! ## Split lines -/

/-- Where a line may be split: behind `a`, which starts an entry and ends with no odd backslash, and
in front of `b`; the second line may be indented by blanks. -/
structure Splittable (a b blanks : List Char) : Prop where
  entry : ∃ c, a.find? (fun c => !isBlank c) = some c ∧ c ≠ '#' ∧ c ≠ '!'
  even : Even (a.rtakeWhile (· = '\\')).length
  unindented : ∀ c ∈ b.head?, isBlank c = false
  blanks : ∀ c ∈ blanks, c = ' ' ∨ c = '\t'

namespace Splittable

/-- The first part of a line, without its own blanks. -/
theorem exists_start (h : Splittable a b blanks) :
    ∃ start, (∀ t, trimStart (a ++ t) = start ++ t) ∧ (∀ t, isComment (start ++ t) = false) ∧
      isContinued start = false := by
  obtain ⟨c, hfind, hhash, hbang⟩ := h.entry
  obtain ⟨hc, indent, rest, rfl, hindent⟩ := List.find?_eq_some_iff_append.mp hfind
  rw [Bool.not_eq_true'] at hc
  have hblank : ∀ d ∈ indent, isBlank d = true := fun d hd => by simpa using hindent d hd
  refine ⟨c :: rest, fun t => ?_, fun t => ?_, ?_⟩
  · rw [List.append_assoc, trimStart_blanks hblank, List.cons_append, trimStart_cons hc]
  · simp [isComment, hhash, hbang]
  · rw [← isContinued_append (isContinued_blanks hblank), isContinued_eq_false_iff]
    exact h.even

theorem trimStart_behind (h : Splittable a b blanks) : trimStart (blanks ++ b) = b := by
  have hblank : ∀ c ∈ blanks, isBlank c = true := by
    intro c hc
    rcases h.blanks c hc with rfl | rfl
    · decide
    · decide
  rw [trimStart_blanks hblank]
  cases b with
  | nil => rfl
  | cons c b => exact trimStart_cons (h.unindented c rfl) b

/-- **A line that is split is joined again**, whatever goes on when it is reached. -/
theorem joinLines_eq (h : Splittable a b blanks) {current : Option (List Char)}
    (hw : Waits current) (rest : List (List Char)) :
    joinLines current ((a ++ ['\\']) :: (blanks ++ b) :: rest) =
      joinLines current ((a ++ b) :: rest) ∧
    joinLines current [a ++ ['\\']] = joinLines current [a] := by
  obtain ⟨start, htrim, hcomment, hends⟩ := h.exists_start
  have hcurrent : isContinued (current.getD []) = false := by
    cases current with
    | none => rfl
    | some text => exact hw text rfl
  have hjoined : isContinued (current.getD [] ++ start) = false := by
    rw [isContinued_append hcurrent, hends]
  -- the backslash makes the first part go on, and is dropped
  have first (t : List (List Char)) : joinLines current ((a ++ ['\\']) :: t) =
      joinLines (some (current.getD [] ++ start)) t := by
    rw [joinLines_cons fun _ => by rw [htrim]; exact hcomment _, htrim, ← List.append_assoc,
      if_pos (isContinued_backslash hjoined), List.dropLast_concat]
  constructor
  · rw [first, joinLines, h.trimStart_behind, joinLines_cons fun _ => by rw [htrim]; exact hcomment b,
      htrim, ← List.append_assoc]
  · have htrim' := htrim []
    rw [List.append_nil, List.append_nil] at htrim'
    have hcomment' := hcomment []
    rw [List.append_nil] at hcomment'
    rw [first, joinLines_cons fun _ => by rw [htrim']; exact hcomment', htrim', hjoined]
    rfl

end Splittable

/-! ## Split texts -/

/-- What follows a line in a text: nothing, or the end of the line and further lines.  A carriage
return in front of the line feed belongs to the end of the line. -/
inductive EndsLine (line : List Char) : List Char → Prop where
  | nothing : EndsLine line []
  | feed (rest : List Char) (h : line.getLast? ≠ some '\r') : EndsLine line ('\n' :: rest)
  | returnFeed (rest : List Char) : EndsLine line ('\r' :: '\n' :: rest)

/-- The lines behind a line do not depend on it. -/
theorem EndsLine.lines {line after : List Char} (h : EndsLine line after) :
    ∃ rest, ∀ x, '\n' ∉ x → EndsLine x after → x ++ after ≠ [] →
      lines (x ++ after) = x :: rest := by
  have kept {x rest : List Char} (hx : EndsLine x ('\n' :: rest)) : withoutReturn x = x := by
    obtain _ | ⟨_, hlast⟩ := hx
    rcases List.eq_nil_or_concat x with rfl | ⟨x, c, rfl⟩
    · rfl
    · rw [List.concat_eq_append, List.getLast?_concat] at hlast
      rw [List.concat_eq_append, withoutReturn_concat, if_neg fun hc => hlast (congrArg some hc)]
  cases h with
  | nothing =>
    refine ⟨[], fun x hx _ hne => ?_⟩
    rw [List.append_nil] at hne ⊢
    exact lines_of_not_mem hx hne
  | feed rest =>
    refine ⟨Text.lines rest, fun x hx hends _ => ?_⟩
    rw [lines_append_cons hx, kept hends]
  | returnFeed rest =>
    refine ⟨Text.lines rest, fun x hx _ _ => ?_⟩
    have hreturn : '\n' ∉ x ++ ['\r'] := by simp [hx]
    rw [List.append_cons, lines_append_cons hreturn, withoutReturn_concat, if_pos rfl]

/-- A text, and the same text with one of its lines split in two: the line `a ++ b` becomes the line
`a` with a backslash behind it, and the line `b` with blanks in front of it. -/
inductive Splits : List Char → List Char → Prop where
  | split {before a b after blanks : List Char} (between : LineEnd)
    (starts : before = [] ∨ before.getLast? = some '\n') (inLine : '\n' ∉ a ++ b)
    (ends : EndsLine (a ++ b) after) (splittable : Splittable a b blanks) :
    Splits (before ++ (a ++ b) ++ after)
      (before ++ (a ++ '\\' :: between.chars) ++ '\n' :: (blanks ++ b) ++ after)

/-- Where a line starts, the lines in front of it are complete. -/
theorem lines_before {before : List Char} (h : before = [] ∨ before.getLast? = some '\n') :
    ∃ front, ∀ t, lines (before ++ t) = front ++ lines t := by
  rcases h with rfl | h
  · exact ⟨[], fun _ => rfl⟩
  · obtain ⟨before, rfl⟩ := List.getLast?_eq_some_iff.mp h
    refine ⟨(splitAt '\n' before).map withoutReturn, fun t => ?_⟩
    rw [List.append_assoc, List.singleton_append, lines_behind]

/-- The second of the two lines ends where the whole line has ended. -/
theorem Splittable.endsLine {after : List Char} (h : Splittable a b blanks)
    (hends : EndsLine (a ++ b) after) : EndsLine (blanks ++ b) after := by
  generalize hline : a ++ b = line at hends
  cases hends with
  | nothing => exact .nothing
  | returnFeed rest => exact .returnFeed rest
  | feed rest hlast =>
    refine .feed rest fun hreturn => ?_
    rcases List.eq_nil_or_concat b with rfl | ⟨b, c, rfl⟩
    · rw [List.append_nil] at hreturn
      rcases h.blanks _ (List.mem_of_getLast? hreturn) with hc | hc
      · exact absurd hc (by decide)
      · exact absurd hc (by decide)
    · subst hline
      rw [List.concat_eq_append, ← List.append_assoc, List.getLast?_concat] at hreturn hlast
      exact hlast hreturn

/-- The first of the two lines. -/
theorem withoutReturn_backslash (a : List Char) (between : LineEnd) :
    withoutReturn (a ++ '\\' :: between.chars) = a ++ ['\\'] := by
  rw [withoutReturn_append_cons (by decide)]
  cases between with
  | feed => rfl
  | returnFeed => rfl

/-- A text with a line that is split holds the same entries. -/
theorem Splits.joinLines_eq {s t : List Char} (h : Splits s t) :
    joinLines none (lines t) = joinLines none (lines s) := by
  obtain @⟨before, a, b, after, blanks, between, starts, inLine, ends, splittable⟩ := h
  obtain ⟨ha, hb⟩ : '\n' ∉ a ∧ '\n' ∉ b := by simpa using inLine
  obtain ⟨front, hfront⟩ := lines_before starts
  obtain ⟨rest, hrest⟩ := ends.lines
  obtain ⟨entries, next, hnext, hjoin⟩ := joinLines_append front (show Waits none from nofun)
  obtain ⟨htwo, hlast⟩ := splittable.joinLines_eq hnext rest
  have hfirst : '\n' ∉ a ++ '\\' :: between.chars := by cases between <;> simp [LineEnd.chars, ha]
  have hbehind : '\n' ∉ blanks ++ b := by
    intro hm
    rcases List.mem_append.mp hm with hm | hm
    · rcases splittable.blanks _ hm with hc | hc <;> exact absurd hc (by decide)
    · exact hb hm
  have hne : a ≠ [] := by
    rintro rfl
    obtain ⟨c, hc, -⟩ := splittable.entry
    cases hc
  have hs : lines (before ++ (a ++ b) ++ after) = front ++ (a ++ b) :: rest := by
    rw [List.append_assoc, hfront, hrest _ inLine ends (by simp [hne])]
  have ht : lines (before ++ (a ++ '\\' :: between.chars) ++ '\n' :: (blanks ++ b) ++ after) =
      front ++ (a ++ ['\\']) :: lines (blanks ++ b ++ after) := by
    rw [List.append_assoc, List.append_assoc, List.cons_append, hfront,
      lines_append_cons hfirst, withoutReturn_backslash]
  rw [hs, ht, hjoin, hjoin]
  by_cases hempty : blanks ++ b ++ after = []
  · -- the text ends behind the first line, and there is no second one
    simp only [List.append_eq_nil_iff] at hempty
    obtain ⟨⟨rfl, rfl⟩, rfl⟩ := hempty
    have hone := hrest a ha (by simpa using ends) (by simp [hne])
    rw [List.append_nil, lines_of_not_mem ha hne] at hone
    show entries ++ joinLines next [a ++ ['\\']] = _
    rw [hlast, ← (List.cons.inj hone).2, List.append_nil]
  · rw [hrest _ hbehind (splittable.endsLine ends) hempty, htwo]

/-- **Lines can be split anywhere**, again and again: the property list stays the same. -/
theorem parse_splits {s t : List Char} (h : Relation.ReflTransGen Splits s t) :
    parse (String.ofList t) = parse (String.ofList s) := by
  induction h with
  | refl => rfl
  | tail _ last ih =>
    rw [← ih, parse, parse, String.toList_ofList, String.toList_ofList, last.joinLines_eq]

/-- A value of two backslashes and a letter is split between them, and the second line again, which
holds nothing but backslashes in front of its end. -/
theorem parse_splits_backslashes :
    Relation.ReflTransGen Splits "k=\\\\x\n".toList "k=\\\r\n\t \\\\\\\nx\n".toList ∧
      parse (String.ofList "k=\\\r\n\t \\\\\\\nx\n".toList) =
        parse (String.ofList "k=\\\\x\n".toList) := by
  have first : Splits "k=\\\\x\n".toList "k=\\\r\n\t \\\\x\n".toList := by
    have splittable : Splittable "k=".toList "\\\\x".toList "\t ".toList := by
      refine ⟨⟨'k', by decide⟩, by decide, ?_, by simp⟩
      simpa using (by decide : isBlank '\\' = false)
    exact @Splits.split [] "k=".toList "\\\\x".toList "\n".toList "\t ".toList .returnFeed
      (by decide) (by decide) (.feed [] (by decide)) splittable
  have second : Splits "k=\\\r\n\t \\\\x\n".toList "k=\\\r\n\t \\\\\\\nx\n".toList := by
    have splittable : Splittable "\t \\\\".toList "x".toList [] := by
      refine ⟨⟨'\\', by decide⟩, by decide, ?_, by simp⟩
      simpa using (by decide : isBlank 'x' = false)
    exact @Splits.split "k=\\\r\n".toList "\t \\\\".toList "x".toList "\n".toList [] .feed
      (by decide) (by decide) (.feed [] (by decide)) splittable
  have both := (Relation.ReflTransGen.single first).tail second
  exact ⟨both, parse_splits both⟩

end Stencil.Properties
