import Stencil.Proofs.Render.Restocked
import Stencil.Proofs.Render.TextFiles
import Stencil.Proofs.Render.Watched

/-!
# Texts from one render to the next

A template is rendered any number of times, in any locales, and its texts are looked for when a
marker first asks for them.  They are kept twice: for the rest of the render, and for later renders
in the same locale.  Here each render is compared with one that is given the property lists of the
files from the start, and so does not look for texts at all.

- `Job.given`: a job with these property lists;
- `Abreast`: what a render knows of its loader, next to the one that is given the texts;
- `Given.tied_write`: **the two go together**, whatever texts have been kept before;
- `Template.serve`: renders one after the other;
- `Template.serve_texts`: **each of them has the texts of the files**, as the first render would, and
  for each locale the files are opened once.
-/

namespace Stencil

open Body

variable {σ : Type} [Sink σ]

/-! ## Texts that are given -/

/-- The property lists in files, with those of the first file in front. -/
def Loader.layersOf (l : Loader) (files : List String) : Bundle :=
  ⟨files.filterMap l.properties?⟩

/-- Their text of a key is that of the files. -/
theorem Loader.layersOf_get? (l : Loader) (files : List String) (key : String) :
    ((l.layersOf files).get? key).getD key = l.text files key := by
  rw [layersOf, get?_layers, text]

/-- A job whose texts are given. -/
def Job.given (job : Job) (texts : Bundle) : Job := { job with bundle := some texts }

/-! ## Next to each other -/

/-- What a render in a locale knows of its loader, next to one that is given the texts.  It has begun
with the shelf `start`; since then it may have looked for texts, in its own locale, and has opened
their files besides what the other render has opened. -/
structure Abreast (t : Template) (l : Loader) (locale : Locale) (start : Shelf) (k k' : Stock) :
    Prop where
  keeps : k.shelf.Keeps t l
  loader : k'.shelf.loader = l
  texts : k.texts = none ∨ k.texts = some (l.bundleOf (t.textFiles locale))
  given : k'.texts = none ∨ k'.texts = some (some (l.layersOf (t.textFiles locale)))
  grows : ∃ looked, (∀ x ∈ looked, x = locale) ∧ start.Grows t l k.shelf looked k'.shelf.opened

variable {t : Template} {l : Loader} {locale : Locale} {start : Shelf}

theorem Abreast.alongside : Alongside (Abreast t l locale start) where
  loader h := h.loader.trans h.keeps.loader.symm
  opening name h := by
    obtain ⟨keeps, loader, texts, given, looked, hlooked, grows⟩ := h
    exact ⟨⟨keeps.loader, keeps.bundles, keeps.once⟩, loader, texts, given, looked, hlooked,
      grows.opening name⟩

theorem Abreast.begun (locale : Locale) (h : start.Keeps t l) :
    Abreast t l locale start ⟨start, none⟩ ⟨.ofLoader l, none⟩ :=
  ⟨h, rfl, .inl rfl, .inl rfl, [], nofun, .refl t l start⟩

/-! ## Going together -/

namespace Given

section

/-- What ties a job to the files: its texts are those of the template, and none are given. -/
structure Asks (t : Template) (l : Loader) (locale : Locale) (job : Job) : Prop where
  template_eq : job.template = t.name
  locale_eq : job.settings.locale = locale
  bundle_eq : job.bundle = none
  readable : ∀ name ∈ t.textFiles locale, l.readable name

variable {job : Job} (hjob : Asks t l locale job)

include hjob

omit [Sink σ] in
/-- Asking for the texts, whether they have been kept or are looked for now, and being given them. -/
theorem texts_apply {s : State σ} {k : Stock} (h : Abreast t l locale start s.stock k) :
    ∃ s' k', Run.texts job s = (.ok (l.bundleOf (t.textFiles locale)), s') ∧
      Run.texts (job.given (l.layersOf (t.textFiles locale))) (s.restock k) =
        (.ok (some (l.layersOf (t.textFiles locale))), s'.restock k') ∧
      Abreast t l locale start s'.stock k' := by
  obtain ⟨keeps, loader, texts, given, looked, hlooked, grows⟩ := h
  -- the texts that are given are kept for the rest of the render
  obtain ⟨k', hshelf, hgiven, hk'⟩ : ∃ k' : Stock, k'.shelf = k.shelf ∧
      k'.texts = some (some (l.layersOf (t.textFiles locale))) ∧
      Run.texts (job.given (l.layersOf (t.textFiles locale))) (s.restock k) =
        (.ok (some (l.layersOf (t.textFiles locale))), s.restock k') := by
    refine ⟨⟨k.shelf, some (some (l.layersOf (t.textFiles locale)))⟩, rfl, rfl, ?_⟩
    obtain ⟨shelf, texts⟩ := k
    rcases given with rfl | rfl <;> rfl
  rw [hk']
  rcases texts with htexts | htexts
  · have hs : s.bundle = none := htexts
    obtain ⟨shelf, hfound, keeps', looked', hlooked', grows'⟩ := keeps.bundle hjob.readable
    refine ⟨{ s with shelf := shelf, bundle := some (l.bundleOf (t.textFiles locale)) }, k', ?_, rfl,
      keeps', hshelf ▸ loader, .inr rfl, .inr hgiven, looked' ++ looked, ?_, ?_⟩
    · unfold Run.texts
      rw [hs, hjob.bundle_eq, hjob.template_eq, hjob.locale_eq]
      dsimp only
      rw [show s.shelf = s.stock.shelf from rfl, hfound]
    · intro x hx
      rcases List.mem_append.mp hx with hx | hx
      · exact hlooked' x hx
      · exact hlooked x hx
    · rw [hshelf]
      exact grows.trans grows'
  · have hs : s.bundle = some (l.bundleOf (t.textFiles locale)) := htexts
    refine ⟨s, k', ?_, rfl, keeps, hshelf ▸ loader, .inr htexts, .inr hgiven, looked, hlooked, ?_⟩
    · unfold Run.texts
      rw [hs]
    · rw [hshelf]
      exact grows

omit [Sink σ] in
theorem tied_resolve (v : Value) (name : String) :
    Tied (Abreast t l locale start) (Body.resolve job v name : Run σ (Option Scalar))
      (Body.resolve (job.given (l.layersOf (t.textFiles locale))) v name) := by
  unfold Body.resolve
  simp only [Run.unheard_bind]
  cases Reference.ofName name with
  | text key =>
    dsimp only
    intro s k hk
    obtain ⟨s', k', hasked, hgiven, hk'⟩ := texts_apply hjob hk
    refine ⟨k', ?_, ?_⟩
    · rw [Run.bind_apply, Run.bind_apply, hasked, hgiven]
      show (Except.ok (some (Scalar.text (((l.layersOf _).get? key).getD key))), _) = _
      rw [l.layersOf_get?, ← l.bundleOf_get?]
      rfl
    · rw [Run.bind_apply, hasked]
      exact hk'
  | setting key => exact .of_unasked (.pure _)
  | path keys =>
    refine .of_unasked ?_
    dsimp only
    cases v.lookup keys with
    | none => exact .pure _
    | some found =>
      cases found with
      | null => exact .pure _
      | scalar s => exact .pure _
      | _ => exact .fail _

theorem tied_substitute (muted : Bool) (v : Value) (m : Marker) :
    Tied (Abreast t l locale start) (Body.substitute job muted v m : Run σ Unit)
      (Body.substitute (job.given (l.layersOf (t.textFiles locale))) muted v m) := by
  refine (tied_resolve hjob v m.name).bind fun found => .of_unasked ?_
  cases found with
  | none => exact .pure ()
  | some value => exact Unasked.copies.emit muted _

/-- **A render goes together with one that is given the texts**, since all that does not ask for
them does. -/
theorem tied_write (n : Nat) :
    ∀ muted v, Tied (Abreast t l locale start) (Body.write job n muted v : Run σ Exit)
      (Body.write (job.given (l.layersOf (t.textFiles locale))) n muted v) := by
  have loops : Compositional.Loops fun _ (c d : Run σ _) => Tied (Abreast t l locale start) c d :=
    Tied.loops
  have separate := loops.separate Tied.copies.emit
  have named : job.template = (job.given (l.layersOf (t.textFiles locale))).template := rfl
  refine Tied.templates.write loops.toSections named Tied.copies.copyText ?_ ?_ ?_ n
  · exact fun muted v m => tied_substitute hjob muted v m
  · exact fun B name separator muted e =>
      loops.sequence (loops.closed B) (separate separator) name muted e
  · exact fun resolved kept => Tied.reopen Abreast.alongside resolved kept

/-- Behind the opening of the template, so do the whole renders. -/
theorem tied_behindOpening (v : Value) (fuel : Nat) :
    Tied (Abreast t l locale start) (Template.behindOpening Body.write job v fuel : Run σ Unit)
      (Template.behindOpening Body.write (job.given (l.layersOf (t.textFiles locale))) v fuel) := by
  have body : Tied (Abreast t l locale start) (Body.write job fuel false v : Run σ Exit) _ :=
    tied_write hjob fuel false v
  exact ((body.inScope (.caching [])).map _).bind fun _ => Tied.copies.checkSink false

end

end Given

/-! ## Whole renders -/

/-- What can be seen of a render from outside. -/
structure Effect (σ : Type) where
  answer : Except Halt Unit
  sink : σ
  streams : Streams

def Effect.of (x : Except Halt Unit × Rendered σ) : Effect σ := ⟨x.1, x.2.sink, x.2.streams⟩

/-- What a render is asked for that has to look for its texts: settings, variables, the value, and
where to write. -/
structure Errand (σ : Type) where
  settings : Settings
  context : List (String × Scalar)
  value : Value
  sink : σ
  streams : Streams

namespace Template

/-- A render with some shelf. -/
def answer (t : Template) (r : Errand σ) (shelf : Shelf) : Except Halt Unit × Rendered σ :=
  t.write ⟨r.settings, none, r.context⟩ r.value ⟨r.sink, r.streams, shelf⟩

/-- A render that is given the property lists of the files, and has a new shelf. -/
def answerGiven (t : Template) (l : Loader) (r : Errand σ) : Except Halt Unit × Rendered σ :=
  t.write ⟨r.settings, some (l.layersOf (t.textFiles r.settings.locale)), r.context⟩ r.value
    ⟨r.sink, r.streams, .ofLoader l⟩

/-- Renders one after the other, each with the shelf that the one before has left. -/
def serve (t : Template) : List (Errand σ) → Shelf → List (Effect σ) × Shelf
  | [], shelf => ([], shelf)
  | r :: errands, shelf =>
    let rendered := t.answer r shelf
    let (effects, shelf) := t.serve errands rendered.2.shelf
    (.of rendered :: effects, shelf)

/-- **One render**, with whatever has been kept of the files: it has their texts, and what it keeps
and opens is accounted for. -/
theorem answer_given {t : Template} {l : Loader} {r : Errand σ} {shelf : Shelf}
    (hshelf : shelf.Keeps t l)
    (hr : ∀ name ∈ t.textFiles r.settings.locale, l.readable name) :
    ∃ k k', Effect.of (t.answer r shelf) = Effect.of (t.answerGiven l r) ∧
      (t.answer r shelf).2.shelf = k.shelf ∧ (t.answerGiven l r).2.shelf = k'.shelf ∧
      Abreast t l r.settings.locale shelf k k' := by
  obtain ⟨settings, context, v, sink, streams⟩ := r
  obtain ⟨o, ho⟩ : ∃ o : RenderOptions, o = ⟨settings, none, context⟩ := ⟨_, rfl⟩
  have hasks : Given.Asks t l settings.locale (t.job o) := by
    rw [ho]
    exact ⟨rfl, rfl, rfl, hr⟩
  have begun := Abreast.begun settings.locale hshelf
  obtain ⟨o', ho'⟩ : ∃ o' : RenderOptions,
    o' = ⟨settings, some (l.layersOf (t.textFiles settings.locale)), context⟩ := ⟨_, rfl⟩
  have hgiven : t.job o' = (t.job o).given (l.layersOf (t.textFiles settings.locale)) := by
    rw [ho, ho']
    rfl
  unfold answer answerGiven write
  rw [← ho, ← ho', writeBy_apply, writeBy_apply]
  dsimp only
  by_cases hnull : v.isNull
  · rw [if_pos hnull, if_pos hnull]
    exact ⟨_, _, rfl, rfl, rfl, begun⟩
  rw [if_neg hnull, if_neg hnull, writeDictionary_apply, writeDictionary_apply, hgiven]
  dsimp only [Shelf.ofLoader]
  rw [hshelf.loader]
  cases l.openNamed t.name with
  | error e => exact ⟨_, _, rfl, rfl, rfl, begun⟩
  | ok source =>
    obtain ⟨k', heq, hk'⟩ := Given.tied_behindOpening hasks v.asDictionary (fuelFor l)
      (t.started ⟨sink, streams, shelf⟩ source) _ (Abreast.alongside.opening t.name begun)
    change behindOpening _ ((t.job o).given _) v.asDictionary (fuelFor l)
      (t.started ⟨sink, streams, .ofLoader l⟩ source) = _ at heq
    dsimp only [Shelf.ofLoader] at heq
    dsimp only
    rw [heq]
    exact ⟨_, _, rfl, rfl, rfl, hk'⟩

/-- Renders one after the other, by induction on them: the shelf that each leaves is one that the
next can begin with, and the locales it has looked for texts in add up. -/
theorem serve_given {t : Template} {l : Loader} {errands : List (Errand σ)} :
    ∀ {shelf : Shelf}, shelf.Keeps t l →
      (∀ r ∈ errands, ∀ name ∈ t.textFiles r.settings.locale, l.readable name) →
      (t.serve errands shelf).1 = errands.map (fun r => .of (t.answerGiven l r)) ∧
        (t.serve errands shelf).2.Keeps t l ∧
        ∃ looked, (∀ x ∈ looked, ∃ r ∈ errands, r.settings.locale = x) ∧
          shelf.Grows t l (t.serve errands shelf).2 looked
            (errands.flatMap fun r => (t.answerGiven l r).2.shelf.opened) := by
  induction errands with
  | nil =>
    intro shelf hshelf _
    exact ⟨rfl, hshelf, [], nofun, .refl t l shelf⟩
  | cons r errands ih =>
    intro shelf hshelf h
    obtain ⟨k, k', heffect, hk, hk', keeps, -, -, -, looked, hlooked, grows⟩ :=
      answer_given hshelf (h r (List.mem_cons_self ..))
    obtain ⟨heffects, keeps', looked', hlooked', grows'⟩ :=
      ih keeps fun r' hr' => h r' (List.mem_cons_of_mem _ hr')
    rw [serve]
    dsimp only
    rw [hk]
    refine ⟨?_, keeps', looked' ++ looked, ?_, ?_⟩
    · rw [heffects, heffect, List.map_cons]
    · intro x hx
      rcases List.mem_append.mp hx with hx | hx
      · obtain ⟨r', hr', heq⟩ := hlooked' x hx
        exact ⟨r', List.mem_cons_of_mem _ hr', heq⟩
      · exact ⟨r, List.mem_cons_self .., (hlooked x hx).symm⟩
    · rw [List.flatMap_cons, hk']
      exact (grows.trans grows').perm List.perm_append_comm

/-- **Renders have the texts of the files, whatever was rendered before.**  Let a template be
rendered any number of times, in any locales, with a loader whose files of texts can be read.
- Each of them is the render that is given the property lists of the files, where a key has the text
  of the first of the files in the locale that exists and has it, or else stands for itself.
- Each render does what it would do as the first one.
- Besides templates, the renders open files of texts: those that exist, once for each of some
  locales, and no two of these locales are the same. -/
theorem serve_texts {t : Template} {l : Loader} {errands : List (Errand σ)}
    (h : ∀ r ∈ errands, ∀ name ∈ t.textFiles r.settings.locale, l.readable name) :
    let served := t.serve errands (.ofLoader l)
    served.1 = errands.map (fun r => .of (t.answerGiven l r)) ∧
      (∀ x key, ((l.layersOf (t.textFiles x)).get? key).getD key = l.text (t.textFiles x) key) ∧
      served.1 = errands.map (fun r => .of (t.answer r (.ofLoader l))) ∧
      (∃ looked : List Locale, looked.Nodup ∧
        (∀ x ∈ looked, ∃ r ∈ errands, r.settings.locale = x) ∧
        served.2.opened.Perm (looked.flatMap (fun x => l.existing (t.textFiles x)) ++
          errands.flatMap (fun r => (t.answerGiven l r).2.shelf.opened))) ∧
      ∀ x, (l.existing (t.textFiles x)).Nodup := by
  intro served
  have hstart := Shelf.Keeps.ofLoader t l
  obtain ⟨heffects, keeps, looked, hlooked, hlocales, hopened⟩ := serve_given hstart h
  refine ⟨heffects, fun x key => l.layersOf_get? (t.textFiles x) key, ?_, ⟨looked, ?_, hlooked, ?_⟩,
    fun x => (t.nodup_textFiles x).filter _⟩
  · refine heffects.trans (List.map_congr_left fun r hr => ?_)
    obtain ⟨_, _, heffect, -⟩ := answer_given hstart (h r hr)
    exact heffect.symm
  · have honce := keeps.once
    rw [hlocales] at honce
    exact (List.nodup_append.mp honce).1
  · rw [show (Shelf.ofLoader l).opened = [] from rfl, List.append_nil] at hopened
    exact hopened

/-- Greetings in American and in British English, again in American English, and in French. -/
theorem serve_texts_greetings :
    let t : Template := ⟨"page", "text/plain", none, none⟩
    let l : Loader := .memory [("page", "{{@hi}} {{@bye}} {{@you}}"),
      ("page_en_US.properties", "hi=Howdy"), ("page_en.properties", "hi=Hello\nbye=Cheers"),
      ("page.properties", "bye=Ciao")]
    let errand (locale : Locale) : Errand String :=
      ⟨⟨locale, 0⟩, [], .scalar (.text ""), "", ⟨[], []⟩⟩
    let american : Locale := ⟨"en", some "US"⟩
    let errands := [american, ⟨"en", some "GB"⟩, american, ⟨"fr", none⟩].map errand
    let served := t.serve errands (.ofLoader l)
    (∀ r ∈ errands, ∀ name ∈ t.textFiles r.settings.locale, l.readable name) ∧
      served.1 = errands.map (fun r => .of (t.answerGiven l r)) ∧
      served.1.map (·.sink) =
        ["Howdy Cheers you", "Hello Cheers you", "Howdy Cheers you", "hi Ciao you"] ∧
      served.2.opened.count "page_en.properties" = 2 := by
  intro t l errand american errands served
  have h : ∀ r ∈ errands, ∀ name ∈ t.textFiles r.settings.locale, l.readable name := by
    decide +kernel
  exact ⟨h, (serve_texts h).1, by decide +kernel, by decide +kernel⟩

end Template

end Stencil
