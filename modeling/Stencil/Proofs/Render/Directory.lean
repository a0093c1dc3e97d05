import Stencil.Proofs.Text.Cut
import Stencil.Render.Loader

/-!
# A directory is never left

A name is put together from the name of a template and what a marker includes, and only then it is
cut into components.  So an included name may turn into a path from the root of the file system, or
get a step up, only in the whole; the check is made of the whole.

- `Path.components_join`: **a path seen from a folder has the components of the folder in front**,
  and its own ones behind them, but for a point at its start;
- `openNamed_directory`: a file is opened by its path below the root, whatever the root is;
- `KeptInside`: a name is refused, or leads to a path inside of the root;
- `Loader.staysInside`: **every name keeps inside**, that of a template and what is included next to
  it.
-/

namespace Stencil

namespace Path

/-! ## Components of joined paths -/

theorem pieces_append (a b : List Char) :
    pieces (.ofList (a ++ '/' :: b)) = pieces (.ofList a) ++ pieces (.ofList b) := by
  simp only [pieces, String.toList_ofList, Text.splitAt_append, List.map_append]

/-- There is always a first piece. -/
theorem head?_pieces_append (path : String) (more : List String) :
    (pieces path ++ more).head? = (pieces path).head? := by
  cases h : pieces path with
  | nil => simp [pieces, Text.splitAt_ne_nil] at h
  | cons piece rest => rfl

/-- From where a path is seen is known at its first slash. -/
theorem start_append (a b : List Char) :
    start (.ofList (a ++ '/' :: b)) = start (.ofList (a ++ ['/'])) := by
  have hhead (c : List Char) : (pieces (.ofList (a ++ '/' :: c))).head? =
      (pieces (.ofList a)).head? := by
    rw [pieces_append, head?_pieces_append]
  have habsolute : isAbsolute (.ofList (a ++ '/' :: b)) = isAbsolute (.ofList (a ++ ['/'])) := by
    cases a <;> simp [isAbsolute]
  simp only [start, habsolute, hhead]

/-- The components in front of a slash, and those behind it. -/
theorem components_append (a b : List Char) :
    components (.ofList (a ++ '/' :: b)) =
      components (.ofList (a ++ ['/'])) ++ (pieces (.ofList b)).filterMap component? := by
  have hnothing : (pieces (.ofList [])).filterMap component? = [] := by decide
  simp only [components, start_append a b, pieces_append, List.filterMap_append, hnothing,
    List.append_nil, List.append_assoc]

/-- A slash at the end of a path is no component. -/
theorem components_slash {a : List Char} (h : a ≠ []) :
    components (.ofList (a ++ ['/'])) = components (.ofList a) := by
  have hnothing : (pieces (.ofList [])).filterMap component? = [] := by decide
  have habsolute : isAbsolute (.ofList (a ++ ['/'])) = isAbsolute (.ofList a) := by
    cases a with
    | nil => exact absurd rfl h
    | cons c a => simp [isAbsolute]
  simp only [components, start, habsolute, pieces_append, List.filterMap_append, hnothing,
    List.append_nil, head?_pieces_append]

/-- A folder is a text that ends with a slash, and has the same components without it. -/
theorem folder_eq {base : String} (h : base ≠ "") :
    ∃ a : List Char, (folder base).toList = a ++ ['/'] ∧
      components base = components (.ofList (a ++ ['/'])) := by
  unfold folder
  by_cases hlast : base.toList.getLast? = some '/'
  · obtain ⟨a, ha⟩ := List.getLast?_eq_some_iff.mp hlast
    rw [if_pos (.inr hlast)]
    exact ⟨a, ha, by rw [← ha, String.ofList_toList]⟩
  · have hne : base.toList ≠ [] := by simpa using h
    rw [if_neg (by simp [h, hlast])]
    refine ⟨base.toList, by simp, ?_⟩
    rw [components_slash hne, String.ofList_toList]

/-- **A path that is seen from a folder**: the components of the folder, and behind them components
of the path. -/
theorem components_join (base : String) {path : String} (h : isAbsolute path = false) :
    ∃ inner, components (join base path) = components base ++ inner ∧
      ∀ c ∈ inner, c ∈ components path := by
  by_cases hbase : base = ""
  · refine ⟨components path, ?_, fun c hc => hc⟩
    have hnothing : components "" = [] := by decide
    simp [join, h, hbase, folder, hnothing]
  · obtain ⟨a, hfolder, hcomponents⟩ := folder_eq hbase
    refine ⟨(pieces path).filterMap component?, ?_, fun c hc => List.mem_append_right _ hc⟩
    have hjoin : join base path = .ofList (a ++ '/' :: path.toList) := by
      apply String.toList_injective
      simp [join, h, hfolder]
    rw [hjoin, components_append, hcomponents, String.ofList_toList]

/-! ## Names that lead out -/

theorem Component.isInner_iff {c : Component} :
    c.isInner = true ↔ c = .current ∨ ∃ name, c = .normal name := by
  cases c <;> simp [Component.isInner]

/-- A path leads out through the root of the file system or a step up. -/
theorem all_isInner_eq_false {path : String} :
    (components path).all Component.isInner = false ↔
      .root ∈ components path ∨ .parent ∈ components path := by
  rw [List.all_eq_false]
  constructor
  · rintro ⟨c, hc, hout⟩
    cases c with
    | root => exact .inl hc
    | parent => exact .inr hc
    | current => simp [Component.isInner] at hout
    | normal name => simp [Component.isInner] at hout
  · rintro (h | h)
    · exact ⟨_, h, by simp [Component.isInner]⟩
    · exact ⟨_, h, by simp [Component.isInner]⟩

theorem isAbsolute_iff {path : String} : isAbsolute path = true ↔ .root ∈ components path := by
  have hpieces : .root ∉ (pieces path).filterMap component? := by
    intro h
    obtain ⟨piece, -, hpiece⟩ := List.mem_filterMap.mp h
    unfold component? at hpiece
    split at hpiece
    · cases hpiece
    · split at hpiece <;> cases hpiece
  rw [components, List.mem_append, or_iff_left hpieces, start]
  cases isAbsolute path with
  | true => simp
  | false =>
    rw [if_neg Bool.false_ne_true]
    split <;> simp

theorem parent_mem_components {path : String} :
    .parent ∈ components path ↔ ".." ∈ pieces path := by
  have hstart : .parent ∉ start path := by
    unfold start
    split
    · simp
    · split <;> simp
  rw [components, List.mem_append, or_iff_right hstart, List.mem_filterMap]
  constructor
  · rintro ⟨piece, hmem, hpiece⟩
    unfold component? at hpiece
    split at hpiece
    · cases hpiece
    · split at hpiece
      · next hup => exact hup ▸ hmem
      · cases hpiece
  · intro h
    exact ⟨"..", h, rfl⟩

/-- A path without components that lead out is seen from a folder. -/
theorem isAbsolute_of_inner {path : String}
    (h : (components path).all Component.isInner = true) : isAbsolute path = false := by
  rw [Bool.eq_false_iff, Ne, isAbsolute_iff]
  intro hroot
  rw [all_isInner_eq_false.mpr (.inl hroot)] at h
  cases h

end Path

open Stencil.Path

/-- A name is refused when one of its components leads out. -/
theorem escapesRoot_eq (name : String) :
    escapesRoot name = !(components name).all Component.isInner := by
  have habsolute : name.startsWith "/" = isAbsolute name := by
    rw [Bool.eq_iff_iff, String.startsWith_string_iff, isAbsolute, decide_eq_true_iff]
    cases name.toList with
    | nil => simp
    | cons c rest => simp [eq_comm]
  have hup : (stepsOf name).contains ".." = true ↔ .parent ∈ components name := by
    rw [parent_mem_components, List.contains_iff_mem, stepsOf, List.mem_filter]
    simp [pieces]
  rw [Bool.eq_iff_iff, escapesRoot, habsolute, Bool.or_eq_true, hup, isAbsolute_iff,
    Bool.not_eq_true', all_isInner_eq_false]

/-- **A file is opened by its path below the root**, whatever the root is. -/
theorem openNamed_directory (root : String) (files : List (String × String)) (name : String) :
    (Loader.directory files).openNamed name = (pathUnder root name).bind (openPath root files) := by
  rw [Loader.openNamed, openFile, escapesRoot_eq, pathUnder]
  cases hinner : (components name).all Component.isInner with
  | false => rfl
  | true =>
    -- what stands behind the root in the path is the name
    have hpath : (join root name).toList.drop (folder root).toList.length = name.toList := by
      rw [join, isAbsolute_of_inner hinner, if_neg Bool.false_ne_true, String.toList_append,
        List.drop_left]
    simp only [Bool.not_true, Bool.false_eq_true, if_false, if_true, Except.bind]
    rw [openPath, hpath, String.ofList_toList]

/-! ## Staying inside -/

/-- A name keeps inside a root.  It leads out, and is refused before any file is looked at; or what is
opened is a path of the root and components behind it that stay in their folder or go into it. -/
inductive KeptInside (root name : String) : Prop where
  | refused (e : IoError) (kind : e.kind = .invalidInput)
    (out : .root ∈ components name ∨ .parent ∈ components name)
    (path : pathUnder root name = .error e)
    (untouched : ∀ files, (Loader.directory files).openNamed name = .error e)
  | inside (path : String) (inner : List Component) (under : pathUnder root name = .ok path)
    (behind : components path = components root ++ inner)
    (stays : ∀ c ∈ inner, c = .current ∨ ∃ step, c = .normal step)
    (opens : ∀ files, (Loader.directory files).openNamed name = openPath root files path)

theorem keptInside (root name : String) : KeptInside root name := by
  have hopens (files : List (String × String)) := openNamed_directory root files name
  cases hinner : (components name).all Component.isInner with
  | false =>
    have hpath : pathUnder root name = .error (escapeError name) := by simp [pathUnder, hinner]
    simp only [hpath, Except.bind] at hopens
    exact .refused _ rfl (all_isInner_eq_false.mp hinner) hpath hopens
  | true =>
    have hpath : pathUnder root name = .ok (join root name) := by simp [pathUnder, hinner]
    simp only [hpath, Except.bind] at hopens
    obtain ⟨inner, hcomponents, hmem⟩ := components_join root (isAbsolute_of_inner hinner)
    refine .inside _ inner hpath hcomponents (fun c hc => ?_) hopens
    exact Component.isInner_iff.mp (List.all_eq_true.mp hinner c (hmem c hc))

/-- **A directory is never left**: the name of a template keeps inside the root, and so does every
name that a marker includes, next to the template where it is looked for. -/
theorem Loader.staysInside (root template included : String) :
    KeptInside root template ∧ KeptInside root (resolveRelative template included) :=
  ⟨keptInside root template, keptInside root _⟩

/-- A name that is harmless alone turns into a path from the root of the file system next to
`/page`, and is refused there; behind a folder a second slash does nothing. -/
example :
    (pathUnder "site" "etc").toOption = some "site/etc" ∧
      (pathUnder "site" (resolveRelative "/page" "etc")).toOption = none ∧
      (pathUnder "site" (resolveRelative "a/page" "/etc")).toOption = some "site/a//etc" ∧
      components "site/a//etc" = [.normal "site", .normal "a", .normal "etc"] := by
  decide +kernel

end Stencil
