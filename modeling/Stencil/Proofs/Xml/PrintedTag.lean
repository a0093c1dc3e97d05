import Stencil.Proofs.Modifier.Decoding
import Stencil.Proofs.Text.Cut
import Stencil.Xml.Markup

/-!
# Tags as they are printed

A tag is printed as its name and, each behind a space, its attributes, with their values escaped
between double quotes.  Names of letters alone leave no doubt where they end, and an escaped value
holds no quote, so that the tag is cut out of a document where it was printed, and its name and its
attributes are read back.

- `Tag.Plain`: names of letters, and no key twice;
- `Tag.print`: the text of a tag, between its angle brackets;
- `Tag.attributes?_print`: **the attributes of a printed tag are those it was printed from**;
- `Piece.cutTag_print`: a tag that is cut does not end in a printed tag.
-/

namespace Stencil

namespace Tag

/-- A text of letters, at least one. -/
def IsWord (s : String) : Prop := s ≠ "" ∧ ∀ c ∈ s.toList, c.isAlpha = true

instance (s : String) : Decidable (IsWord s) :=
  @instDecidableAnd _ _ _ (List.decidableBAll _ s.toList)

/-- A name and attributes whose names are words, with no key twice.  The values are not
restricted. -/
structure Plain (name : String) (attributes : List (String × String)) : Prop where
  word : IsWord name
  keys : ∀ a ∈ attributes, IsWord a.1
  distinct : (attributes.map Prod.fst).Nodup

/-- An attribute, with a space in front. -/
def printAttribute (a : String × String) : List Char :=
  ' ' :: (a.1.toList ++ '=' :: '"' :: ((Escape.markup a.2).toList ++ ['"']))

/-- The text of a tag. -/
def print (name : String) (attributes : List (String × String)) : List Char :=
  name.toList ++ attributes.flatMap printAttribute

/-! ## Words -/

/-- A letter is none of the characters that are not. -/
theorem ne_of_isAlpha {c d : Char} (hc : c.isAlpha = true) (hd : d.isAlpha = false) : c ≠ d := by
  rintro rfl
  exact Bool.false_ne_true (hd.symm.trans hc)

theorem isSpace_of_isAlpha {c : Char} (h : c.isAlpha = true) : isSpace c = false := by
  simp only [isSpace, Bool.or_eq_false_iff, decide_eq_false_iff_not]
  exact ⟨⟨⟨ne_of_isAlpha h rfl, ne_of_isAlpha h rfl⟩, ne_of_isAlpha h rfl⟩, ne_of_isAlpha h rfl⟩

theorem endsKey_of_isAlpha {c : Char} (h : c.isAlpha = true) : endsKey c = false := by
  simp only [endsKey, Bool.or_eq_false_iff, decide_eq_false_iff_not]
  exact ⟨ne_of_isAlpha h rfl, isSpace_of_isAlpha h⟩

theorem IsWord.holds_no_space {s : String} (h : IsWord s) :
    ∀ c ∈ s.toList, (!isSpace c) = true := by
  intro c hc
  rw [isSpace_of_isAlpha (h.2 c hc)]
  rfl

/-- A word has a first letter. -/
theorem IsWord.eq_cons {s : String} (h : IsWord s) :
    ∃ c cs, s.toList = c :: cs ∧ ∀ d ∈ c :: cs, d.isAlpha = true := by
  cases hs : s.toList with
  | nil => exact absurd (String.toList_eq_nil_iff.mp hs) h.1
  | cons c cs => exact ⟨c, cs, rfl, hs ▸ h.2⟩

/-! ## Reading the parts -/

/-- Behind a name, there is nothing or a space. -/
theorem attributes_head (attributes : List (String × String)) :
    attributes.flatMap printAttribute = [] ∨
      ∃ s, attributes.flatMap printAttribute = ' ' :: s := by
  cases attributes with
  | nil => exact .inl rfl
  | cons a attributes => exact .inr ⟨_, rfl⟩

/-- The name of a printed tag. -/
theorem name_print {name : String} (h : IsWord name) (attributes : List (String × String)) :
    Tag.name (print name attributes) = name.toList := by
  rw [Tag.name, print, List.takeWhile_append_of_pos]
  · obtain hnil | ⟨s, hs⟩ := attributes_head attributes
    · rw [hnil, List.takeWhile_nil, List.append_nil]
    · rw [hs, List.takeWhile_cons_of_neg (by decide), List.append_nil]
  · exact h.holds_no_space

/-- What stands behind the name of a printed tag. -/
theorem dropWhile_print {name : String} (h : IsWord name) (attributes : List (String × String)) :
    (print name attributes).dropWhile (fun c => !isSpace c) =
      attributes.flatMap printAttribute := by
  rw [print, List.dropWhile_append_of_pos]
  · obtain hnil | ⟨s, hs⟩ := attributes_head attributes
    · rw [hnil, List.dropWhile_nil]
    · rw [hs, List.dropWhile_cons_of_neg (by decide)]
  · exact h.holds_no_space

theorem key?_word {key : String} (h : IsWord key) (rest : List Char) :
    key? (key.toList ++ '=' :: rest) = some (key.toList, rest) := by
  obtain ⟨c, cs, hkey, hletters⟩ := h.eq_cons
  have hcs : ∀ d ∈ cs, (!endsKey d) = true := by
    intro d hd
    rw [endsKey_of_isAlpha (hletters d (List.mem_cons_of_mem c hd))]
    rfl
  rw [hkey, List.cons_append, key?, List.dropWhile_append_of_pos hcs,
    List.takeWhile_append_of_pos hcs, List.dropWhile_cons_of_neg (by decide),
    List.takeWhile_cons_of_neg (by decide), List.append_nil]
  rfl

/-- A quoted value ends at its closing quote. -/
theorem quoted?_markup (value : String) (rest : List Char) :
    quoted? ('"' :: ((Escape.markup value).toList ++ '"' :: rest)) =
      some ((Escape.markup value).toList, rest) := by
  have hquote : '"' ∉ (Escape.markup value).toList :=
    fun hmem => (Escape.harmless_markup value '"' hmem).2.2 rfl
  rw [quoted?, if_pos (.inl rfl), Text.dropWhile_append_cons hquote,
    Text.takeWhile_append_cons hquote]

/-- A printed attribute is read, if its key has not been found before. -/
theorem attributesFrom_printAttribute {a : String × String} (h : IsWord a.1)
    {found : List (List Char × List Char)} (hnew : ∀ e ∈ found, e.1 ≠ a.1.toList) (fuel : Nat)
    (rest : List Char) :
    attributesFrom (fuel + 1) found (printAttribute a ++ rest) =
      attributesFrom fuel (found ++ [(a.1.toList, a.2.toList)]) rest := by
  have hspaces : skipSpaces (printAttribute a ++ rest) =
      a.1.toList ++ '=' :: '"' :: ((Escape.markup a.2).toList ++ '"' :: rest) := by
    obtain ⟨c, cs, hkey, hletters⟩ := h.eq_cons
    have hc : ¬isSpace c = true := by
      rw [isSpace_of_isAlpha (hletters c (List.mem_cons_self ..))]
      exact Bool.false_ne_true
    rw [skipSpaces, printAttribute, hkey, List.cons_append, List.dropWhile_cons_of_pos (by decide)]
    simp only [List.cons_append, List.append_assoc, List.nil_append]
    rw [List.dropWhile_cons_of_neg hc]
  have hfound : found.any (fun e => e.1 = a.1.toList) = false := by
    rw [List.any_eq_false]
    intro e he
    exact fun h => hnew e he (of_decide_eq_true h)
  rw [attributesFrom, hspaces]
  split
  · next hnil => exact absurd hnil (by simp)
  · rw [key?_word h, Option.bind_eq_bind, Option.bind_some]
    dsimp only
    rw [hfound, if_neg Bool.false_ne_true, skipSpaces,
      List.dropWhile_cons_of_neg (by decide), quoted?_markup, Option.bind_some]
    dsimp only
    rw [Escape.resolve?_markup, Option.bind_eq_bind, Option.bind_some]

/-- The induction is on the attributes that are left; each of them takes one unit of the fuel. -/
theorem attributesFrom_print {attributes : List (String × String)}
    (hwords : ∀ a ∈ attributes, IsWord a.1) (hdistinct : (attributes.map Prod.fst).Nodup)
    {found : List (List Char × List Char)}
    (hnew : ∀ e ∈ found, ∀ a ∈ attributes, e.1 ≠ a.1.toList) {fuel : Nat}
    (hfuel : attributes.length < fuel) :
    attributesFrom fuel found (attributes.flatMap printAttribute) =
      some (found ++ attributes.map fun a => (a.1.toList, a.2.toList)) := by
  obtain ⟨fuel, rfl⟩ : ∃ k, fuel = k + 1 := ⟨fuel - 1, by omega⟩
  induction attributes generalizing found fuel with
  | nil =>
    rw [List.map_nil, List.append_nil]
    rfl
  | cons a attributes ih =>
    obtain ⟨hfirst, hrest⟩ := List.forall_mem_cons.mp hwords
    rw [List.map_cons, List.nodup_cons] at hdistinct
    rw [List.flatMap_cons, attributesFrom_printAttribute hfirst
      fun e he => hnew e he a (List.mem_cons_self ..)]
    obtain ⟨fuel, rfl⟩ : ∃ k, fuel = k + 1 := ⟨fuel - 1, by rw [List.length_cons] at hfuel; omega⟩
    rw [ih hrest hdistinct.2 _ fuel (Nat.lt_of_succ_lt_succ hfuel), List.map_cons,
      List.append_assoc, List.singleton_append]
    -- the key that has been read does not come again
    intro e he b hb heq
    rcases List.mem_append.mp he with he | he
    · exact hnew e he b (List.mem_cons_of_mem a hb) heq
    · rw [List.mem_singleton.mp he] at heq
      rw [String.toList_inj.mp heq] at hdistinct
      exact hdistinct.1 (List.mem_map_of_mem hb)

/-- **The attributes of a printed tag**, in order and with their values unescaped. -/
theorem attributes?_print {name : String} {attributes : List (String × String)}
    (h : Plain name attributes) : attributes? (print name attributes) = some attributes := by
  have hlength : attributes.length ≤ (attributes.flatMap printAttribute).length := by
    clear h
    induction attributes with
    | nil => exact Nat.le_refl _
    | cons a attributes ih =>
      rw [List.flatMap_cons, List.length_append, printAttribute, List.length_cons,
        List.length_cons]
      omega
  rw [attributes?, dropWhile_print h.word, attributesFrom_print h.keys h.distinct
    (fun e he => absurd he List.not_mem_nil) (Nat.lt_succ_of_le hlength), Option.map_some,
    List.nil_append, List.map_map]
  congr 1
  refine (List.map_congr_left fun a _ => ?_).trans (List.map_id _)
  simp

end Tag

namespace Piece

open Tag

/-! ## Cutting tags out -/

/-- What a tag is cut to when a part of it stands in front of what is left. -/
def inFront (s : List Char) (cut : List Char × List Char) : List Char × List Char :=
  (s ++ cut.1, cut.2)

theorem map_inFront_nil (cut : Option (List Char × List Char)) : cut.map (inFront []) = cut := by
  cases cut <;> rfl

theorem map_inFront (s t : List Char) (cut : Option (List Char × List Char)) :
    (cut.map (inFront t)).map (inFront s) = cut.map (inFront (s ++ t)) := by
  cases cut with
  | none => rfl
  | some cut => simp [inFront]

/-- A tag does not end where there is no quote and no angle bracket. -/
theorem cutTag_outside {s : List Char} (h : ∀ c ∈ s, c ≠ '>' ∧ c ≠ '"' ∧ c ≠ '\'')
    (rest : List Char) : cutTag none (s ++ rest) = (cutTag none rest).map (inFront s) := by
  induction s with
  | nil => rw [List.nil_append, map_inFront_nil]
  | cons c s ih =>
    obtain ⟨⟨hend, hdouble, hsingle⟩, hs⟩ := List.forall_mem_cons.mp h
    rw [List.cons_append, cutTag, if_neg hend,
      if_neg (not_or.mpr ⟨hdouble, hsingle⟩), ih hs]
    cases cutTag none rest <;> rfl

/-- A tag does not end in quotes. -/
theorem cutTag_inside {s : List Char} (h : ∀ c ∈ s, c ≠ '"') (rest : List Char) :
    cutTag (some '"') (s ++ '"' :: rest) =
      (cutTag none rest).map (inFront (s ++ ['"'])) := by
  induction s with
  | nil =>
    rw [List.nil_append, cutTag, if_pos rfl]
    cases cutTag none rest <;> rfl
  | cons c s ih =>
    obtain ⟨hc, hs⟩ := List.forall_mem_cons.mp h
    rw [List.cons_append, cutTag, if_neg hc, ih hs]
    cases cutTag none rest <;> rfl

theorem outside_of_isAlpha {c : Char} (h : c.isAlpha = true) :
    c ≠ '>' ∧ c ≠ '"' ∧ c ≠ '\'' :=
  ⟨ne_of_isAlpha h rfl, ne_of_isAlpha h rfl, ne_of_isAlpha h rfl⟩

/-- A tag does not end in an attribute. -/
theorem cutTag_printAttribute {a : String × String} (h : IsWord a.1) (rest : List Char) :
    cutTag none (printAttribute a ++ rest) =
      (cutTag none rest).map (inFront (printAttribute a)) := by
  have hfront : ∀ c ∈ ' ' :: a.1.toList ++ ['='], c ≠ '>' ∧ c ≠ '"' ∧ c ≠ '\'' := by
    intro c hc
    rw [List.mem_append, List.mem_cons, List.mem_singleton] at hc
    rcases hc with (rfl | hc) | rfl
    · decide
    · exact outside_of_isAlpha (h.2 c hc)
    · decide
  have hparts : ∀ s, printAttribute a ++ s =
      (' ' :: a.1.toList ++ ['=']) ++ ('"' :: ((Escape.markup a.2).toList ++ '"' :: s)) := by
    intro s
    simp [printAttribute]
  have hopen : ∀ s, cutTag none ('"' :: s) = (cutTag (some '"') s).map (inFront ['"']) := by
    intro s
    rw [cutTag, if_neg (by decide), if_pos (.inl rfl)]
    cases cutTag (some '"') s <;> rfl
  rw [hparts, cutTag_outside hfront, hopen,
    cutTag_inside fun c hc => (Escape.harmless_markup a.2 c hc).2.2, map_inFront, map_inFront,
    ← List.append_nil (printAttribute a), hparts]
  simp

/-- **A tag does not end in a printed tag**, whatever its values hold. -/
theorem cutTag_print {name : String} {attributes : List (String × String)}
    (h : Plain name attributes) (rest : List Char) :
    cutTag none (print name attributes ++ rest) =
      (cutTag none rest).map (inFront (print name attributes)) := by
  have hattributes : cutTag none (attributes.flatMap printAttribute ++ rest) =
      (cutTag none rest).map (inFront (attributes.flatMap printAttribute)) := by
    have hkeys := h.keys
    clear h
    induction attributes with
    | nil => rw [List.flatMap_nil, List.nil_append, map_inFront_nil]
    | cons a attributes ih =>
      obtain ⟨ha, hkeys⟩ := List.forall_mem_cons.mp hkeys
      rw [List.flatMap_cons, List.append_assoc, cutTag_printAttribute ha, ih hkeys, map_inFront]
  rw [print, List.append_assoc,
    cutTag_outside fun c hc => outside_of_isAlpha (h.word.2 c hc), hattributes, map_inFront]

end Piece

end Stencil
