import Stencil.Proofs.Data.Fields
import Stencil.Proofs.Render.Marker
import Stencil.Render.Bundle

/-!
# What a loader can give

A render opens its template and what markers name.  Both are bounded by the texts of the loader,
whatever the names look like under which they can be opened.

- `Loader.sources`: all that can be opened, and `Loader.size_sources`: its bytes together;
- `Loader.targets`: the names that markers in these sources can include, at most one for each
  character (`Loader.length_targets`);
- `Loader.mem_targets`: **a marker that includes something names a target**;
- `Shelf.Alike`: shelves that answer alike, though they may have opened different resources;
- `Shelf.count_bundle`: looking for texts opens the property lists of these texts only.
-/

namespace Stencil

theorem Source.size_ofBytes (bytes : List UInt8) : (Source.ofBytes bytes).size = bytes.length := by
  unfold ofBytes
  cases bytes <;> rfl

theorem Source.size_ofText (text : String) : (Source.ofText text).size = text.utf8ByteSize := by
  rw [ofText, size_ofBytes, Array.length_toList]
  rfl

/-- Different names stand for different resources. -/
theorem resolveRelative_injective (base : String) : Function.Injective (resolveRelative base) := by
  intro name other h
  unfold resolveRelative at h
  cases hbase : Text.splitLast '/' base.toList with
  | none =>
    rw [hbase] at h
    exact h
  | some parts =>
    rw [hbase] at h
    have hchars := String.ofList_injective h
    exact String.toList_injective (List.cons.inj (List.append_cancel_left hchars)).2

namespace Reader

/-- What can be reached is what the script holds before its first failure, from the position on. -/
theorem reach_eq {r : Reader} (h : r.Valid) : r.reach = r.script.chars.length - r.position := by
  have hpos := h.position
  rw [reach, ahead_eq h, script, Script.chars_ofChars_append, Script.chars_ofChars_append,
    List.length_append, List.length_append, List.length_drop]
  omega

theorem Onward.reach_le {r r' : Reader} (h : Onward r r') (hr : r.Valid) (hr' : r'.Valid) :
    r'.reach ≤ r.reach := by
  rw [reach_eq hr, reach_eq hr', h.script]
  exact Nat.sub_le_sub_left h.position _

end Reader

namespace Loader

/-! ## Sources -/

/-- All that a loader can open, but for the folders of a directory, which give nothing. -/
def sources : Loader → List Source
  | .memory texts => texts.map fun e => .ofText e.2
  | .scripted resources => resources.filterMap fun e => e.2.toOption
  | .directory files => files.map fun e => .ofText e.2

/-- The bytes of sources together. -/
def sizeOfSources (sources : List Source) : Nat := sources.foldr (fun s n => s.size + n) 0

@[simp] theorem sizeOfSources_cons (s : Source) (sources : List Source) :
    sizeOfSources (s :: sources) = s.size + sizeOfSources sources := rfl

theorem sizeOfTexts_eq (texts : List (String × String)) :
    sizeOfTexts texts = sizeOfSources (texts.map fun e => Source.ofText e.2) := by
  induction texts with
  | nil => rfl
  | cons e texts ih =>
    rw [List.map_cons, sizeOfSources_cons, ← ih, Source.size_ofText]
    rfl

/-- The size of a loader is that of its sources together. -/
theorem size_sources (l : Loader) : l.size = sizeOfSources l.sources := by
  cases l with
  | memory texts => exact sizeOfTexts_eq texts
  | directory files => exact sizeOfTexts_eq files
  | scripted resources =>
    induction resources with
    | nil => rfl
    | cons e resources ih =>
      obtain ⟨name, resource⟩ := e
      cases resource with
      | error e =>
        show 0 + size (.scripted resources) = _
        rw [Nat.zero_add, ih]
        rfl
      | ok source =>
        show source.size + size (.scripted resources) = _
        rw [ih]
        rfl

theorem size_le_sizeOfSources {sources : List Source} {s : Source} (h : s ∈ sources) :
    s.size ≤ sizeOfSources sources := by
  induction sources with
  | nil => cases h
  | cons first rest ih =>
    rw [sizeOfSources_cons]
    rcases List.mem_cons.mp h with rfl | h
    · exact Nat.le_add_right _ _
    · exact Nat.le_trans (ih h) (Nat.le_add_left _ _)

/-- A path that ends at a file ends at one of the files. -/
theorem walk_file {files : List (List String × String)} {text : String} (steps : List String) :
    ∀ {here : List String}, walk files here steps = .file text → ∃ f ∈ files, f.2 = text := by
  induction steps with
  | nil =>
    intro here h
    cases h
  | cons step rest ih =>
    intro here h
    rw [walk] at h
    split at h
    · exact ih h
    · split at h
      · cases h
      · dsimp only at h
        split at h
        · rename_i path text' hf
          split at h
          · exact ⟨_, List.mem_of_find?_eq_some hf, Place.file.inj h⟩
          · cases h
        · split at h
          · exact ih h
          · cases h

/-- What is opened is one of the sources, or gives nothing. -/
theorem openNamed_sources {l : Loader} {name : String} {s : Source}
    (h : l.openNamed name = .ok s) : s ∈ l.sources ∨ s.size = 0 := by
  cases l with
  | memory texts =>
    rw [openNamed] at h
    cases hget : Fields.get? name texts with
    | none =>
      rw [hget] at h
      cases h
    | some text =>
      rw [hget] at h
      refine .inl (List.mem_map.mpr ⟨(name, text), Fields.mem_of_get? hget, Except.ok.inj h⟩)
  | scripted resources =>
    rw [openNamed] at h
    cases hget : Fields.get? name resources with
    | none =>
      rw [hget] at h
      cases h
    | some resource =>
      rw [hget] at h
      refine .inl (List.mem_filterMap.mpr ⟨(name, resource), Fields.mem_of_get? hget, ?_⟩)
      rw [show resource = .ok s from h]
      rfl
  | directory files =>
    rw [openNamed, openFile] at h
    -- names that are no paths of files
    split at h
    · cases h
    rw [openBelow] at h
    split at h
    · cases h
    split at h
    · cases h
    dsimp only at h
    split at h
    · -- a file, which is one of those of the directory
      rename_i text hw
      obtain ⟨f, hf, rfl⟩ := walk_file _ hw
      obtain ⟨g, hg, rfl⟩ := List.mem_map.mp hf
      exact .inl (List.mem_map.mpr ⟨g, hg, Except.ok.inj h⟩)
    · -- a folder, which gives nothing
      rw [← Except.ok.inj h]
      exact .inr rfl
    all_goals cases h

theorem size_le {l : Loader} {name : String} {s : Source} (h : l.openNamed name = .ok s) :
    s.size ≤ l.size := by
  rw [size_sources]
  rcases openNamed_sources h with hm | h0
  · exact size_le_sizeOfSources hm
  · exact h0 ▸ Nat.zero_le _

/-! ## Targets -/

/-- What a marker at the start of a script includes. -/
def includeAt (base : String) (es : Script) : Option String :=
  match (Marker.read es).1 with
  | .ok m => if m.kind = .include then some (resolveRelative base m.name) else none
  | .error _ => none

/-- What markers in a source can include, from any of its characters on. -/
def targetsIn (base : String) (s : Source) : List String :=
  let es := (Reader.ofSource s).script
  (List.range es.chars.length).filterMap fun i => includeAt base (es.drop i)

/-- What markers in the sources of a loader can include. -/
def targets (base : String) (l : Loader) : List String := l.sources.flatMap (targetsIn base)

theorem length_targetsIn (base : String) (s : Source) : (targetsIn base s).length ≤ s.size := by
  refine Nat.le_trans (List.length_filterMap_le ..) ?_
  rw [List.length_range]
  exact Reader.length_chars_script s

/-- There are no more targets than bytes. -/
theorem length_targets (base : String) (l : Loader) : (l.targets base).length ≤ l.size := by
  rw [size_sources, targets]
  induction l.sources with
  | nil => exact Nat.le_refl 0
  | cons s rest ih =>
    rw [List.flatMap_cons, List.length_append, sizeOfSources_cons]
    exact Nat.add_le_add (length_targetsIn base s) ih

/-- **A marker that includes something names a target**, wherever it is read in what the loader has
opened. -/
theorem mem_targets {l : Loader} {base name : String} {s : Source} {r r' : Reader} {m : Marker}
    (hs : l.openNamed name = .ok s) (hv : r.Valid) (hr : r.script = (Reader.ofSource s).script)
    (hm : Marker.read r = (.ok m, r')) (hk : m.kind = .include) :
    resolveRelative base m.name ∈ l.targets base := by
  have pair := (Reader.paired_script r).read ⟨hv, .refl r, rfl⟩
  rw [hm] at pair
  cases hes : Marker.read r.ahead with
  | mk answer es =>
    rw [hes] at pair
    cases pair with
    | ok h =>
      -- a marker has been read, so the source is not empty and the marker starts within it
      have hreach : 0 < r.reach := Nat.lt_of_le_of_lt (Nat.zero_le _) h.2
      rw [Reader.reach_eq hv, hr] at hreach
      have hlen := Reader.length_chars_script s
      have hmem : s ∈ l.sources := (openNamed_sources hs).resolve_right fun h0 => by omega
      refine List.mem_flatMap.mpr ⟨s, hmem, List.mem_filterMap.mpr ⟨r.position, ?_, ?_⟩⟩
      · exact List.mem_range.mpr (by omega)
      · rw [← hr, includeAt, show r.script.drop r.position = r.ahead from rfl, hes]
        exact if_pos hk

end Loader

/-! ## Shelves -/

namespace Shelf

/-- Shelves over the same loader that keep the same bundles. -/
structure Alike (s t : Shelf) : Prop where
  loader : s.loader = t.loader
  bundles : s.bundles = t.bundles

/-- The same answer, and shelves alike; the loader stays as it is. -/
def Answers {α : Type} (s t : Shelf) : Except IoError α × Shelf → Except IoError α × Shelf → Prop :=
  fun x y => x.1 = y.1 ∧ Alike x.2 y.2 ∧ x.2.loader = s.loader ∧ y.2.loader = t.loader

theorem Alike.openNamed {s t : Shelf} (h : Alike s t) (name : String) :
    Answers s t (s.openNamed name) (t.openNamed name) := by
  unfold Shelf.openNamed Answers
  rw [← h.loader]
  cases s.loader.openNamed name with
  | ok source => exact ⟨rfl, ⟨rfl, h.bundles⟩, rfl, rfl⟩
  | error e => exact ⟨rfl, h, rfl, h.loader.symm⟩

theorem Alike.readLayers (names : List String) :
    ∀ {s t : Shelf}, Alike s t → Answers s t (readLayers names s) (readLayers names t) := by
  induction names with
  | nil =>
    intro s t h
    exact ⟨rfl, h, rfl, rfl⟩
  | cons name names ih =>
    intro s t h
    have first := h.openNamed name
    simp only [Shelf.readLayers]
    cases hs : s.openNamed name with
    | mk answer s' =>
      cases ht : t.openNamed name with
      | mk answer' t' =>
        rw [hs, ht] at first
        obtain ⟨ha, hal, hls, hlt⟩ := first
        obtain rfl : answer = answer' := ha
        have rest := ih hal
        rw [Answers, hls, hlt] at rest
        cases answer with
        | error e =>
          dsimp only
          by_cases he : e.kind = .notFound
          · rw [if_pos he, if_pos he]
            exact rest
          · rw [if_neg he, if_neg he]
            exact ⟨rfl, hal, hls, hlt⟩
        | ok source =>
          dsimp only
          cases source.readText with
          | error e => exact ⟨rfl, hal, hls, hlt⟩
          | ok text =>
            cases hs' : Shelf.readLayers names s' with
            | mk layers s'' =>
              cases ht' : Shelf.readLayers names t' with
              | mk layers' t'' =>
                rw [hs', ht'] at rest
                obtain ⟨ha', hrest⟩ := rest
                obtain rfl : layers = layers' := ha'
                cases layers <;> exact ⟨rfl, hrest⟩

theorem Alike.readBundle {s t : Shelf} (h : Alike s t) (base : String) (locale : Locale) :
    Answers s t (s.readBundle base locale) (t.readBundle base locale) := by
  have layers := h.readLayers
    (locale.bundleSuffixes.map (fun suffix => base ++ suffix ++ ".properties"))
  simp only [Shelf.readBundle]
  cases hs : Shelf.readLayers _ s with
  | mk answer s' =>
    cases ht : Shelf.readLayers _ t with
    | mk answer' t' =>
      rw [hs, ht] at layers
      obtain ⟨ha, hrest⟩ := layers
      obtain rfl : answer = answer' := ha
      cases answer with
      | error e => exact ⟨rfl, hrest⟩
      | ok found => cases found <;> exact ⟨rfl, hrest⟩

/-- Shelves alike find the same bundle. -/
theorem Alike.bundle {s t : Shelf} (h : Alike s t) (base : String) (locale : Locale) :
    Answers s t (s.bundle base locale) (t.bundle base locale) := by
  have read := h.readBundle base locale
  simp only [Shelf.bundle, ← h.bundles]
  cases s.bundles.find? (fun e => e.1 = locale) with
  | some e => exact ⟨rfl, h, rfl, rfl⟩
  | none =>
    dsimp only
    cases hs : s.readBundle base locale with
    | mk answer s' =>
      cases ht : t.readBundle base locale with
      | mk answer' t' =>
        rw [hs, ht] at read
        obtain ⟨ha, hal, hls, hlt⟩ := read
        obtain rfl : answer = answer' := ha
        cases answer with
        | error e => exact ⟨rfl, hal, hls, hlt⟩
        | ok found =>
          exact ⟨rfl, ⟨hal.loader, congrArg ((locale, found) :: ·) hal.bundles⟩, hls, hlt⟩

/-! ## What has been opened -/

/-- Opening a resource opens no other one. -/
theorem count_openNamed {name other : String} (h : name ≠ other) (s : Shelf) :
    (s.openNamed other).2.opened.count name = s.opened.count name := by
  unfold openNamed
  cases s.loader.openNamed other with
  | ok source => exact List.count_cons_of_ne h.symm
  | error e => rfl

/-- Reading property lists opens these only. -/
theorem count_readLayers {name : String} {names : List String} (h : name ∉ names) :
    ∀ s : Shelf, (readLayers names s).2.opened.count name = s.opened.count name := by
  induction names with
  | nil => exact fun _ => rfl
  | cons first rest ih =>
    intro s
    rw [List.mem_cons, not_or] at h
    have opened := count_openNamed h.1 s
    rw [readLayers]
    generalize s.openNamed first = x at opened
    obtain ⟨answer, s₁⟩ := x
    have later := (ih h.2 s₁).trans opened
    cases answer with
    | error e =>
      dsimp only
      split
      · exact later
      · exact opened
    | ok source =>
      dsimp only
      cases source.readText with
      | error e => exact opened
      | ok text =>
        dsimp only
        generalize readLayers rest s₁ = y at later
        obtain ⟨layers, s₂⟩ := y
        cases layers <;> exact later

theorem count_bundle {name base : String} {locale : Locale}
    (h : name ∉ locale.bundleSuffixes.map fun suffix => base ++ suffix ++ ".properties")
    (s : Shelf) : (s.bundle base locale).2.opened.count name = s.opened.count name := by
  have layers := count_readLayers h s
  unfold bundle readBundle
  dsimp only
  split
  · rfl
  · generalize readLayers _ s = x at layers
    obtain ⟨found, s₁⟩ := x
    rcases found with e | _ | _ <;> exact layers

end Shelf

end Stencil
