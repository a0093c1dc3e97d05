import Stencil.Proofs.Render.Compositional
import Stencil.Proofs.Render.Included
import Stencil.Proofs.Render.Pieces

/-!
# Where a render stands

While a template is read, what lies ahead of its reader are the tokens that have not been read, and
copying text takes them one by one.

- `Reader.Faces`: the tokens that lie ahead of a reader;
- `Stands`: a state in which these tokens lie ahead, with the loader and the texts of the render;
- `Consults`: a computation that asks nothing but single-pass sequences;
- `copyText_token`: **copying takes the next token**: a text is written, a marker is given back.
-/

namespace Stencil

open Markup

variable {σ : Type}

/-- What lies ahead of a reader: the characters of these tokens, and no failure. -/
def Reader.Faces (r : Reader) (ts : List Token) : Prop :=
  ∃ chars, r.ahead = Script.ofChars chars ∧ tokens? chars = some ts

/-- A state with these tokens ahead of its reader, for a loader, and for texts that are there or are
found when they are asked for. -/
structure Stands (job : Job) (l : Loader) (texts : Option Bundle) (s : State σ) (ts : List Token) :
    Prop where
  faces : s.reader.Faces ts
  texts : (Run.texts job s).1 = .ok texts
  loader : s.shelf.loader = l

variable {job : Job} {l : Loader} {texts : Option Bundle} {s s' : State σ} {ts ts' : List Token}

/-! ## Texts -/

/-- The texts do not depend on what has been opened. -/
theorem texts_of_alike (hb : s'.bundle = s.bundle) (hs : s.shelf.Alike s'.shelf) :
    (Run.texts job s').1 = (Run.texts job s).1 := by
  unfold Run.texts
  rw [hb]
  cases s.bundle with
  | some found => rfl
  | none =>
    cases job.bundle with
    | some given => rfl
    | none =>
      have answer := (hs.bundle (bundleBase job.template) job.settings.locale).1
      dsimp only
      cases hx : s.shelf.bundle (bundleBase job.template) job.settings.locale with
      | mk x shelf =>
        cases hy : s'.shelf.bundle (bundleBase job.template) job.settings.locale with
        | mk y shelf' =>
          rw [hx, hy] at answer
          obtain rfl : x = y := answer
          cases x <;> rfl

/-- The texts stay as they are when they have been asked for. -/
theorem texts_apply (h : (Run.texts job s).1 = .ok texts) :
    ∃ shelf, Run.texts job s = (.ok texts, { s with shelf := shelf, bundle := some texts }) ∧
      shelf.loader = s.shelf.loader := by
  unfold Run.texts at h ⊢
  cases hb : s.bundle with
  | some found =>
    rw [hb] at h
    obtain rfl : found = texts := Except.ok.inj h
    refine ⟨s.shelf, ?_, rfl⟩
    show (Except.ok found, s) = (Except.ok found, { s with bundle := some found })
    rw [← hb]
  | none =>
    rw [hb] at h
    cases hg : job.bundle with
    | some given =>
      rw [hg] at h
      obtain rfl : some given = texts := Except.ok.inj h
      exact ⟨s.shelf, rfl, rfl⟩
    | none =>
      -- looking for the texts may open resources, but leaves the loader
      rw [hg] at h
      dsimp only at h ⊢
      have loader := (Shelf.Alike.bundle ⟨rfl, rfl⟩ (bundleBase job.template)
        job.settings.locale : Shelf.Answers s.shelf s.shelf _ _).2.2.1
      cases hx : s.shelf.bundle (bundleBase job.template) job.settings.locale with
      | mk x shelf =>
        rw [hx] at h loader
        cases x with
        | error e => cases h
        | ok found =>
          obtain rfl : found = texts := Except.ok.inj h
          exact ⟨shelf, rfl, loader⟩

/-- Looking for texts writes nothing, and asks no sequence. -/
theorem texts_keeps (job : Job) (s : State σ) :
    (Run.texts job s).2.sink = s.sink ∧ (Run.texts job s).2.streams = s.streams := by
  unfold Run.texts
  split
  · exact ⟨rfl, rfl⟩
  · split
    · exact ⟨rfl, rfl⟩
    · split <;> exact ⟨rfl, rfl⟩

namespace Stands

/-- Only the reader, the texts and the loader matter. -/
theorem of_shelf (h : Stands job l texts s ts) (hf : s'.reader.Faces ts')
    (hb : s'.bundle = s.bundle) (hs : s.shelf.Alike s'.shelf) : Stands job l texts s' ts' :=
  ⟨hf, (texts_of_alike hb hs).trans h.texts, hs.loader.symm.trans h.loader⟩

/-- Nothing that can be seen has changed. -/
theorem of_view (h : Stands job l texts s ts) (hv : s'.view = s.view) :
    Stands job l texts s' ts := by
  have hscript : s'.reader.script = s.reader.script := congrArg View.script hv
  have hposition : s'.reader.position = s.reader.position := congrArg View.position hv
  have hloader : s'.shelf.loader = s.shelf.loader := congrArg View.loader hv
  have hbundles : s'.shelf.bundles = s.shelf.bundles := congrArg View.bundles hv
  refine h.of_shelf ?_ (congrArg View.bundle hv) ⟨hloader.symm, hbundles.symm⟩
  obtain ⟨chars, hahead, htokens⟩ := h.faces
  refine ⟨chars, ?_, htokens⟩
  rw [Reader.ahead, hscript, hposition]
  exact hahead

end Stands

/-! ## Variables -/

/-- A name stands for what the tree makes of it. -/
theorem resolve_apply (st : Stands job l texts s ts) (included : String → Value → Writing σ Unit)
    (v : Value) (name : String) :
    ∃ s', Body.resolve job v name s =
        ((Scene.resolve ⟨job, texts, included⟩ v name).mapError Halt.failed, s') ∧
      s'.sink = s.sink ∧ Stands job l texts s' ts := by
  unfold Body.resolve Scene.resolve
  simp only [Run.unheard_bind]
  cases Body.Reference.ofName name with
  | text key =>
    obtain ⟨shelf, happly, hloader⟩ := texts_apply st.texts
    dsimp only
    rw [Run.bind_apply, happly]
    exact ⟨_, rfl, rfl, st.faces, rfl, hloader.trans st.loader⟩
  | setting key => exact ⟨s, rfl, rfl, st⟩
  | path keys =>
    dsimp only
    cases v.lookup keys with
    | none => exact ⟨s, rfl, rfl, st⟩
    | some found => cases found <;> exact ⟨s, rfl, rfl, st⟩

/-! ## Single-pass sequences -/

variable {α β : Type}

/-- A computation that asks nothing but the single-pass sequences. -/
def Consults (c : Run σ α) : Prop :=
  ∀ s s' : State σ, s'.streams = s.streams →
    (c s').1 = (c s).1 ∧ (c s').2 = { s' with streams := (c s).2.streams }

namespace Consults

theorem pure (a : α) : Consults (Pure.pure a : Run σ α) := by
  intro s s' h
  refine ⟨rfl, ?_⟩
  show s' = { s' with streams := s.streams }
  rw [← h]

theorem request (send : Streams → α × Streams) : Consults (Run.request send : Run σ α) := by
  intro s s' h
  unfold Run.request
  rw [h]
  exact ⟨rfl, rfl⟩

theorem bind {c : Run σ α} {k : α → Run σ β} (hc : Consults c) (hk : ∀ a, Consults (k a)) :
    Consults (c >>= k) := by
  intro s s' h
  have first := hc s s' h
  rw [Run.bind_apply, Run.bind_apply]
  obtain ⟨hx, hs⟩ := first
  rw [show c s' = ((c s).1, { s' with streams := (c s).2.streams }) from Prod.ext hx hs]
  obtain ⟨x, s₁⟩ := c s
  cases x with
  | error e => exact ⟨rfl, rfl⟩
  | ok a => exact hk a s₁ { s' with streams := s₁.streams } rfl

theorem requests : Compositional.Requests (OfFirst fun _ (c : Run σ _) => Consults c) where
  answer := pure
  halt e := by
    intro s s' h
    refine ⟨rfl, ?_⟩
    show s' = { s' with streams := s.streams }
    rw [← h]
  bind := bind
  stepsLeft id := by
    intro s s' h
    show (.ok (s'.streams.stepsLeft id + 2) : Except Halt Nat) = .ok (s.streams.stepsLeft id + 2) ∧
      s' = { s' with streams := s.streams }
    rw [← h]
    exact ⟨rfl, rfl⟩
  nextRow _ := request _
  hasNext _ := request _

/-- Nothing but the sequences changes. -/
theorem of_eq {c : Run σ α} (hc : Consults c) {x : Except Halt α} (h : c s = (x, s')) :
    s' = { s with streams := s'.streams } := by
  have same := (hc s s rfl).2
  rw [h] at same
  exact same

/-- The sink is left as it is. -/
theorem sink {c : Run σ α} (hc : Consults c) {x : Except Halt α} (h : c s = (x, s')) :
    s'.sink = s.sink :=
  (congrArg State.sink (hc.of_eq h)).trans rfl

/-- The answer inside of a section is the one in front of it. -/
theorem inside {c : Run σ α} (hc : Consults c) {x : Except Halt α} (h : c s = (x, s'))
    (name : String) :
    c { s with sections := name :: s.sections } =
      (x, { s' with sections := name :: s'.sections }) := by
  have same := hc s { s with sections := name :: s.sections } rfl
  rw [h] at same
  rw [hc.of_eq h]
  exact Prod.ext same.1 same.2

end Consults

namespace Body

theorem consults_next (e : Elements) :
    Consults (e.next : Run σ (Option (Except DataError Value) × Elements)) :=
  Consults.requests.next e

theorem consults_holds (found : Option Value) : Consults (holds found : Run σ Bool) :=
  Consults.requests.holds (fun _ => .pure ()) found

theorem consults_bound (e : Elements) : Consults (e.bound : Run σ Nat) := Consults.requests.bound e

end Body

/-! ## Scopes and sections -/

/-- A state inside of one more scope. -/
def State.push [Observer σ] (s : State σ) (scope : Scope) : State σ :=
  { s.told (.entering scope) with scopes := scope :: s.scopes }

/-- The state behind the innermost scope. -/
def State.pop [Observer σ] (s : State σ) : State σ :=
  State.told { s with scopes := s.scopes.tail } .leaving

theorem inScope_told [Observer σ] (scope : Scope) (c : Run σ α) (s : State σ) :
    Run.inScope scope c s = match c (s.push scope) with
      | (.ok a, s') => (.ok a, s'.pop)
      | (.error e, s') => (.error e, s') := by
  unfold Run.inScope
  show ((c >>= _) (s.push scope)) = _
  rw [Run.bind_apply]
  cases c (s.push scope) with
  | mk x s' => cases x <;> rfl

theorem inScope_apply (scope : Scope) (c : Run σ α) (s : State σ) :
    Run.inScope scope c s = match c { s with scopes := scope :: s.scopes } with
      | (.ok a, s') => (.ok a, { s' with scopes := s'.scopes.tail })
      | (.error e, s') => (.error e, s') := inScope_told scope c s

theorem inSection_apply (name : String) (c : Run σ α) (s : State σ) :
    Run.inSection name c s = match c { s with sections := name :: s.sections } with
      | (.ok a, s') => (.ok a, { s' with sections := s'.sections.tail })
      | (.error e, s') => (.error e, s') := by
  unfold Run.inSection
  rw [Run.bind_apply]
  show ((c >>= _) { s with sections := name :: s.sections }) = _
  rw [Run.bind_apply]
  cases c { s with sections := name :: s.sections } with
  | mk x s' => cases x <;> rfl

/-! ## Copying -/

variable [Sink σ]

/-- What copying comes to behind its next token. -/
inductive Taken (muted : Bool) (n : Nat) (s : State σ) :
    List Token → Except Halt (Option Marker) × State σ → Prop where
  | finish {r : Reader} (hv : r.Valid) (hf : r.Faces []) :
    Taken muted n s [] (.ok none, { s with reader := r })
  | marker {r : Reader} {m : Marker} {ts : List Token} (hv : r.Valid) (hf : r.Faces ts) :
    Taken muted n s (.marker m :: ts) (.ok (some m), { s with reader := r })
  | text {r : Reader} {chars : List Char} {ts : List Token} (hv : r.Valid) (hf : r.Faces ts)
    (hr : r.reach < s.reader.reach) :
    Taken muted n s (.text chars :: ts)
      (Run.copyText muted n { s with reader := r, sink := copied muted chars s.sink })
  /-- An opening brace at the end of the template. -/
  | brace {r : Reader} {chars : List Char} (hv : r.Valid) (hf : r.Faces []) :
    Taken muted n s [.text chars]
      (.ok none, { s with reader := r, sink := copied muted chars s.sink })

/-- **Copying takes the next token.** -/
theorem copyText_token {muted : Bool} {n : Nat} (hv : s.reader.Valid) (hf : s.reader.Faces ts)
    (hsink : muted ∨ Sink.failed s.sink = false) :
    Taken muted n s ts (Run.copyText muted (n + 1) s) := by
  obtain ⟨chars, hahead, htokens⟩ := hf
  have takes := copyText_takes n hv hsink
  rw [hahead] at takes
  generalize Run.copyText muted (n + 1) s = x at takes ⊢
  cases chars with
  | nil =>
    rw [← Option.some.inj htokens]
    cases takes with
    | finish hr => exact .finish hr.valid ⟨[], hr.ahead, rfl⟩
  | cons c rest =>
    rw [tokens?_cons] at htokens
    obtain ⟨⟨token, rest'⟩, hfirst, hmap⟩ := Option.bind_eq_some_iff.mp htokens
    obtain ⟨ts', hts', rfl⟩ := Option.map_eq_some_iff.mp hmap
    rw [Script.token_ofChars hfirst] at takes
    generalize hrest : Script.ofChars rest' = es at takes
    cases takes with
    | marker hr => exact .marker hr.valid ⟨rest', hr.ahead.trans hrest.symm, hts'⟩
    | text hr hlt => exact .text hr.valid ⟨rest', hr.ahead.trans hrest.symm, hts'⟩ hlt
    | brace hr =>
      obtain rfl : rest' = [] := List.map_eq_nil_iff.mp hrest
      obtain rfl : [] = ts' := Option.some.inj hts'
      exact .brace hr.valid ⟨[], hr.ahead, rfl⟩

end Stencil
