/-!
# Cutting texts

At a character, or at the characters of the Unicode property White_Space, twenty-five of them in ten
ranges:

* `splitAt sep`: all the pieces between separators;
* `splitOnce sep`, `splitLast sep`: the two parts around the first or the last separator;
* `lines`: the pieces between line ends;
* `trimStart`, `trimEnd`, `trim`: a text without the blanks at its start, at its end, or at both.
-/

namespace Stencil.Text

/-! ## At a character -/

/-- Cuts a text after every `sep`: always at least one piece, and one more than there are
separators. -/
def splitAt (sep : Char) : List Char → List (List Char)
  | [] => [[]]
  | c :: rest =>
    if c = sep then [] :: splitAt sep rest
    else
      match splitAt sep rest with
      | [] => [[c]]
      | piece :: pieces => (c :: piece) :: pieces

/-- Cuts a text in two at the first `sep`, which belongs to neither part. -/
def splitOnce (sep : Char) : List Char → Option (List Char × List Char)
  | [] => none
  | c :: rest =>
    if c = sep then some ([], rest)
    else (splitOnce sep rest).map (fun (a, b) => (c :: a, b))

/-- Cuts a text in two at the last `sep`, which belongs to neither part. -/
def splitLast (sep : Char) (s : List Char) : Option (List Char × List Char) :=
  (splitOnce sep s.reverse).map (fun (after, before) => (before.reverse, after.reverse))

/-- A piece without one carriage return at its end. -/
def withoutReturn (s : List Char) : List Char :=
  match s.reverse with
  | '\r' :: rest => rest.reverse
  | _ => s

/-- The lines of a text.  A line ends at a line feed, or at a carriage return and a line feed; a
line end at the end of the text starts no further line, and what stands behind the last line end
keeps its carriage return. -/
def lines (s : List Char) : List (List Char) :=
  let pieces := splitAt '\n' s
  let last := (pieces.getLast?).getD []
  pieces.dropLast.map withoutReturn ++ (if last.isEmpty then [] else [last])

theorem length_splitAt (sep : Char) (s : List Char) :
    (splitAt sep s).length = s.count sep + 1 := by
  induction s with
  | nil => rfl
  | cons c rest ih =>
    unfold splitAt
    split
    · next h => subst h; simp [ih]
    · next h =>
      rw [List.count_cons_of_ne (by simpa using h)]
      split
      · next hs => rw [hs] at ih; simp at ih
      · next hs => rw [hs] at ih; simpa using ih

/-! ## At blanks -/

/-- The closed ranges of white space characters, ascending and apart. -/
def blankRanges : List (Nat × Nat) :=
  [(0x09, 0x0D), (0x20, 0x20), (0x85, 0x85), (0xA0, 0xA0), (0x1680, 0x1680), (0x2000, 0x200A),
   (0x2028, 0x2029), (0x202F, 0x202F), (0x205F, 0x205F), (0x3000, 0x3000)]

/-- Has the property White_Space. -/
def isBlank (c : Char) : Bool :=
  blankRanges.any (fun (first, last) => first ≤ c.toNat && c.toNat ≤ last)

/-- The text from its first character that is not blank. -/
def trimStart (s : List Char) : List Char := s.dropWhile isBlank

/-- The text without the blanks at its end. -/
def trimEnd (s : List Char) : List Char := (s.reverse.dropWhile isBlank).reverse

/-- The text without the blanks at both ends. -/
def trim (s : List Char) : List Char := trimEnd (trimStart s)

end Stencil.Text
