import Mathlib.Data.List.Perm.Basic
import Stencil.Proofs.Text.Cut
import Stencil.Render.Template

/-!
# The files of texts

The texts of a template in a locale stand in up to three files.  A shelf reads those that exist when
they are first asked for, and keeps what it has found, also when that is nothing.

- `Template.textFiles`: the names of the files, the most specific first;
- `Loader.text`: the text of a key, from the first of these files that exists and has it;
- `Loader.readable`: a file exists and can be read, or does not exist;
- `Shelf.Keeps`: **the invariant of a shelf**: it keeps what the files hold, once for each locale;
- `Shelf.Grows`: what has been looked for and opened from one shelf to another;
- `Shelf.Keeps.bundle`: asking a shelf for texts, whether it has kept them or not.
-/

namespace Stencil

/-! ## What the files hold -/

/-- The names of the files with the texts of a template: those of the language in the region, of the
language, and of all languages. -/
def Template.textFiles (t : Template) (locale : Locale) : List String :=
  let base := bundleBase t.name
  let general := [base ++ "_" ++ locale.language ++ ".properties", base ++ ".properties"]
  match locale.region with
  | some region => (base ++ "_" ++ locale.language ++ "_" ++ region ++ ".properties") :: general
  | none => general

theorem Template.textFiles_eq (t : Template) (locale : Locale) :
    locale.bundleSuffixes.map (fun suffix => bundleBase t.name ++ suffix ++ ".properties") =
      t.textFiles locale := by
  unfold Locale.bundleSuffixes textFiles
  cases locale.region <;> simp [String.append_assoc]

/-- No two of the files have the same name. -/
theorem Template.nodup_textFiles (t : Template) (locale : Locale) :
    (t.textFiles locale).Nodup := by
  -- a more general file has a shorter name
  have shorter : (t.textFiles locale).Pairwise fun name other => other.length < name.length := by
    have hone : "_".length = 1 := rfl
    unfold textFiles
    cases locale.region with
    | none =>
      simp [String.length_append]
      omega
    | some region =>
      simp [String.length_append]
      omega
  refine shorter.imp ?_
  rintro name other h rfl
  exact Nat.lt_irrefl _ h

namespace Loader

variable (l : Loader)

/-- The property list in a file, if it exists and can be read. -/
def properties? (name : String) : Option Properties :=
  match l.openNamed name with
  | .ok source => source.readText.toOption.map Properties.parse
  | .error _ => none

/-- A file exists and can be read, or it does not exist. -/
def readable (name : String) : Bool :=
  match l.openNamed name with
  | .ok source => source.readText.isOk
  | .error e => e.kind = .notFound

variable (files : List String)

/-- The text of a key: what the first of the files has that exists and has the key, or else the key
itself. -/
def text (key : String) : String :=
  (files.findSome? fun name => (l.properties? name).bind (·.get? key)).getD key

/-- Those of the files that exist. -/
def existing : List String := files.filter fun name => (l.properties? name).isSome

variable {l files} in
theorem existing_cons_none {name : String} (h : l.properties? name = none) :
    l.existing (name :: files) = l.existing files :=
  List.filter_cons_of_neg (by simp [h])

variable {l files} in
theorem existing_cons_some {name : String} {layer : Properties}
    (h : l.properties? name = some layer) :
    l.existing (name :: files) = name :: l.existing files :=
  List.filter_cons_of_pos (by simp [h])

/-- The property lists in files, if there are any. -/
def bundleOf : Option Bundle :=
  match files.filterMap l.properties? with
  | [] => none
  | layers => some ⟨layers⟩

/-- Looking through the lists that exist is looking through the files. -/
theorem get?_layers (key : String) :
    Bundle.get? ⟨files.filterMap l.properties?⟩ key =
      files.findSome? fun name => (l.properties? name).bind (·.get? key) := by
  unfold Bundle.get?
  induction files with
  | nil => rfl
  | cons name files ih =>
    cases hname : l.properties? name with
    | none =>
      rw [List.filterMap_cons_none hname, List.findSome?_cons, hname]
      exact ih
    | some layer =>
      rw [List.filterMap_cons_some hname, List.findSome?_cons, List.findSome?_cons, hname, ih]
      rfl

/-- The first file that has a key has its text. -/
theorem bundleOf_get? (key : String) :
    ((l.bundleOf files).bind (·.get? key)).getD key = l.text files key := by
  have layers := l.get?_layers files key
  rw [text, ← layers, bundleOf]
  split
  · rename_i hnone
    rw [hnone]
    rfl
  · rfl

end Loader

/-! ## Shelves -/

namespace Shelf

/-- The locales whose texts have been looked for. -/
def locales (s : Shelf) : List Locale := s.bundles.map (·.1)

/-- **The invariant of a shelf**: for each locale that texts have been looked for, it keeps once what
the files of the template hold. -/
structure Keeps (t : Template) (l : Loader) (s : Shelf) : Prop where
  loader : s.loader = l
  bundles : ∀ e ∈ s.bundles, e.2 = l.bundleOf (t.textFiles e.1)
  once : s.locales.Nodup

theorem Keeps.ofLoader (t : Template) (l : Loader) : (Shelf.ofLoader l).Keeps t l :=
  ⟨rfl, nofun, List.nodup_nil⟩

/-- From one shelf to another, texts have been looked for in the locales `looked`, and besides their
files, so far as these exist, `others` have been opened. -/
structure Grows (t : Template) (l : Loader) (s s' : Shelf) (looked : List Locale)
    (others : List String) : Prop where
  locales : s'.locales = looked ++ s.locales
  opened : s'.opened.Perm
    (looked.flatMap (fun x => l.existing (t.textFiles x)) ++ (others ++ s.opened))

namespace Grows

variable {t : Template} {l : Loader} {s s' s'' : Shelf} {looked looked' : List Locale}
  {others others' : List String}

theorem refl (t : Template) (l : Loader) (s : Shelf) : s.Grows t l s [] [] := ⟨rfl, .refl _⟩

theorem trans (h : s.Grows t l s' looked others) (h' : s'.Grows t l s'' looked' others') :
    s.Grows t l s'' (looked' ++ looked) (others' ++ others) where
  locales := by rw [h'.locales, h.locales, List.append_assoc]
  opened := by
    -- both have opened the same in all
    have first := List.perm_iff_count.mp h.opened
    have rest := List.perm_iff_count.mp h'.opened
    rw [List.perm_iff_count]
    intro name
    specialize first name
    specialize rest name
    rw [List.flatMap_append]
    simp only [List.count_append] at first rest ⊢
    omega

theorem perm (h : s.Grows t l s' looked others) (ho : others.Perm others') :
    s.Grows t l s' looked others' :=
  ⟨h.locales, h.opened.trans ((ho.append_right _).append_left _)⟩

/-- One more resource is opened. -/
theorem opening (h : s.Grows t l s' looked others) (name : String) :
    s.Grows t l { s' with opened := name :: s'.opened } looked (name :: others) :=
  ⟨h.locales, (h.opened.cons name).trans List.perm_middle.symm⟩

end Grows

/-- Reading files, each of which exists and can be read, or does not exist. -/
theorem readLayers_apply {l : Loader} (files : List String) (h : ∀ name ∈ files, l.readable name) :
    ∀ s : Shelf, s.loader = l → readLayers files s =
      (.ok (files.filterMap l.properties?),
        { s with opened := (l.existing files).reverse ++ s.opened }) := by
  induction files with
  | nil => exact fun _ _ => rfl
  | cons name files ih =>
    rintro s rfl
    have hname := h name (List.mem_cons_self ..)
    have hrest := ih fun name' hm => h name' (List.mem_cons_of_mem _ hm)
    rw [readLayers, openNamed]
    unfold Loader.readable at hname
    cases hopen : s.loader.openNamed name with
    | error e =>
      rw [hopen] at hname
      have hnone : s.loader.properties? name = none := by rw [Loader.properties?, hopen]
      dsimp only
      rw [if_pos (of_decide_eq_true hname), hrest s rfl, List.filterMap_cons_none hnone,
        Loader.existing_cons_none hnone]
    | ok source =>
      rw [hopen] at hname
      dsimp only at hname ⊢
      cases htext : source.readText with
      | error e =>
        rw [htext] at hname
        cases hname
      | ok text =>
        have hsome : s.loader.properties? name = some (Properties.parse text) := by
          rw [Loader.properties?, hopen]
          dsimp only
          rw [htext]
          rfl
        dsimp only
        rw [hrest { s with opened := name :: s.opened } rfl, List.filterMap_cons_some hsome,
          Loader.existing_cons_some hsome, List.reverse_cons, List.append_assoc]
        rfl

variable {t : Template} {l : Loader} {s : Shelf} {locale : Locale}

/-- **Asking a shelf for texts.**  They are those of the files.  Unless they have been looked for in
this locale before, the files that exist are opened, once each. -/
theorem Keeps.bundle (hs : s.Keeps t l) (h : ∀ name ∈ t.textFiles locale, l.readable name) :
    ∃ s', s.bundle (bundleBase t.name) locale = (.ok (l.bundleOf (t.textFiles locale)), s') ∧
      s'.Keeps t l ∧ ∃ looked, (∀ x ∈ looked, x = locale) ∧ s.Grows t l s' looked [] := by
  unfold Shelf.bundle
  cases hfind : s.bundles.find? (fun e => e.1 = locale) with
  | some e =>
    obtain ⟨locale', found⟩ := e
    have hlocale : locale' = locale := by simpa using List.find?_some hfind
    have hfound := hs.bundles _ (List.mem_of_find?_eq_some hfind)
    dsimp only at hfound ⊢
    rw [hfound, hlocale]
    exact ⟨s, rfl, hs, [], nofun, .refl t l s⟩
  | none =>
    have hread : s.readBundle (bundleBase t.name) locale = (.ok (l.bundleOf (t.textFiles locale)),
        { s with opened := (l.existing (t.textFiles locale)).reverse ++ s.opened }) := by
      unfold readBundle Loader.bundleOf
      dsimp only
      rw [t.textFiles_eq, readLayers_apply _ h s hs.loader]
      cases (t.textFiles locale).filterMap l.properties? <;> rfl
    rw [hread]
    refine ⟨_, rfl, ⟨hs.loader, ?_, ?_⟩, [locale], fun _ => List.mem_singleton.mp, rfl, ?_⟩
    · rintro e he
      rcases List.mem_cons.mp he with rfl | he
      · rfl
      · exact hs.bundles e he
    · refine List.nodup_cons.mpr ⟨fun hm => ?_, hs.once⟩
      obtain ⟨e, he, rfl⟩ := List.mem_map.mp hm
      exact absurd (List.find?_eq_none.mp hfind e he) (by simp)
    · rw [List.flatMap_singleton]
      exact (List.reverse_perm _).append_right _

end Shelf

end Stencil
