import Stencil.Proofs.Data.Streams
import Stencil.Proofs.Render.Loader
import Stencil.Render.Body

/-!
# Renders in step

Two renders may differ in what their readers have decoded, in which readers they keep for included
templates, and in what they have opened; nobody can see it.  This module says what it means for two
states to be the same but for that, and shows for each small computation that it keeps such states
together and gives the same result.

- `View`: what can be seen of a state;
- `Sound`: the invariant of a render: every reader, also one that is kept, belongs to a resource of
  the loader, a kept one has no marks, and the templates being read are different and all named by
  markers;
- `Twin`: sound states with the same view;
- `Frame`: what a computation leaves as it was: marks, sections, scopes, templates being read; the
  reader only moves on, and single-pass sequences only run out;
- `Agree`: two computations that end with the same result in states that can be seen to be the same.
-/

namespace Stencil

variable {σ α β : Type}

/-! ## Computations applied to a state -/

namespace Run

theorem bind_apply {ε τ : Type} (c : ExceptT ε (StateM τ) α) (k : α → ExceptT ε (StateM τ) β)
    (s : τ) : (c >>= k) s = match c s with
      | (.ok a, s) => k a s
      | (.error e, s) => (.error e, s) := by
  cases h : c s with
  | mk a s' =>
    simp only [bind, ExceptT.bind, ExceptT.bindCont, ExceptT.mk, StateT.bind, h]
    cases a <;> rfl

/-- Catching the end of a computation makes it an answer. -/
theorem lift_run_apply (c : Run σ α) (s : State σ) :
    (ExceptT.lift (ExceptT.run c) : Run σ (Except Halt α)) s = (.ok (c s).1, (c s).2) := rfl

theorem map_apply (f : α → β) (c : Run σ α) (s : State σ) :
    (f <$> c : Run σ β) s = match c s with
      | (.ok a, s) => (.ok (f a), s)
      | (.error e, s) => (.error e, s) := by
  cases h : c s with
  | mk a s' =>
    simp only [Functor.map, ExceptT.map, ExceptT.mk, bind, StateT.bind, h]
    cases a <;> rfl

/-- A sink that does not listen is the same behind an occasion. -/
theorem unheard (occasion : Occasion) (s : State σ) : s.told occasion = s := rfl

theorem unheard_bind (occasion : Occasion) (k : Unit → Run σ α) :
    (notice occasion >>= k) = k () := rfl

/-- Where the sink does not listen, a scope is pushed before a computation, and popped behind it. -/
theorem inScope_silent (scope : Scope) (c : Run σ α) :
    (inScope scope c : Run σ α) = (do
      modify fun s => { s with scopes := scope :: s.scopes }
      let a ← c
      modify fun s => { s with scopes := s.scopes.tail }
      pure a) := rfl

theorem discard_apply (c : Run σ α) (s : State σ) :
    (discard c : Run σ PUnit) s = match c s with
      | (.ok _, s) => (.ok ⟨⟩, s)
      | (.error e, s) => (.error e, s) := map_apply (Function.const α PUnit.unit) c s

end Run

/-- Where the sink does not listen, a sequence is asked for its next element, and nothing more. -/
theorem Body.pull_silent (e : Body.Elements) : (Body.pull e : Run σ _) = e.next := by
  funext s
  rw [Body.pull, Run.unheard_bind, Run.bind_apply]
  generalize e.next s = x
  obtain ⟨answer, s'⟩ := x
  cases answer <;> rfl

/-! ## What can be seen of a state -/

/-- Whether included templates are left out in a scope. -/
def Scope.isDiscarding : Scope → Bool
  | .discarding => true
  | .caching _ => false

/-- Whether included templates are left out where a render stands. -/
def State.discards (s : State σ) : Prop := (s.scopes.map Scope.isDiscarding).head? = some true

instance (s : State σ) : Decidable s.discards := inferInstanceAs (Decidable (_ = _))

/-- What can be seen of a state: of its reader what it reads and where it is, of its scopes whether
they discard, of its loader what it answers. -/
structure View (σ : Type) where
  sink : σ
  script : Script
  position : Nat
  marks : List Nat
  streams : Streams
  loader : Loader
  bundles : List (Locale × Option Bundle)
  bundle : Option (Option Bundle)
  discarding : List Bool
  sections : List String
  active : List String

/-- What can be seen of a state. -/
def State.view (s : State σ) : View σ :=
  { sink := s.sink
    script := s.reader.script
    position := s.reader.position
    marks := s.reader.marks
    streams := s.streams
    loader := s.shelf.loader
    bundles := s.shelf.bundles
    bundle := s.bundle
    discarding := s.scopes.map Scope.isDiscarding
    sections := s.sections
    active := s.active }

/-- A reader of the resource of a name. -/
structure Reader.Of (l : Loader) (name : String) (r : Reader) : Prop where
  valid : r.Valid
  source : ∃ s, l.openNamed name = .ok s ∧ r.script = (ofSource s).script

/-- The invariant of a render. -/
structure Sound (job : Job) (s : State σ) : Prop where
  reader : ∃ name outer, s.active = name :: outer ∧ s.reader.Of s.shelf.loader name
  different : s.active.Nodup
  named : ∀ name ∈ s.active, name ∈ job.template :: s.shelf.loader.targets job.template
  opens : ∀ name ∈ s.active, ∃ source, s.shelf.loader.openNamed name = .ok source
  kept : ∀ readers, .caching readers ∈ s.scopes → ∀ e ∈ readers,
    e.2.marks = [] ∧ e.2.Of s.shelf.loader (resolveRelative job.template e.1)

theorem Sound.valid {job : Job} {s : State σ} (h : Sound job s) : s.reader.Valid := by
  obtain ⟨_, _, _, hr⟩ := h.reader
  exact hr.valid

/-- Only the reader, the loader, the scopes and the templates being read matter to the invariant. -/
theorem Sound.congr {job : Job} {s s' : State σ} (h : Sound job s) (hr : s'.reader = s.reader)
    (hl : s'.shelf.loader = s.shelf.loader) (hs : s'.scopes = s.scopes)
    (ha : s'.active = s.active) : Sound job s' where
  reader := by
    rw [ha, hr, hl]
    exact h.reader
  different := by
    rw [ha]
    exact h.different
  named := by
    rw [ha, hl]
    exact h.named
  opens := by
    rw [ha, hl]
    exact h.opens
  kept := by
    rw [hs, hl]
    exact h.kept

/-- Sound states that look the same. -/
structure Twin (job : Job) (s t : State σ) : Prop where
  left : Sound job s
  right : Sound job t
  view : s.view = t.view

namespace Twin

variable {job : Job} {s t : State σ}

theorem refl (h : Sound job s) : Twin job s s := ⟨h, h, rfl⟩

theorem sink (h : Twin job s t) : s.sink = t.sink := congrArg View.sink h.view

theorem streams (h : Twin job s t) : s.streams = t.streams := congrArg View.streams h.view

theorem bundle (h : Twin job s t) : s.bundle = t.bundle := congrArg View.bundle h.view

theorem sections (h : Twin job s t) : s.sections = t.sections := congrArg View.sections h.view

theorem active (h : Twin job s t) : s.active = t.active := congrArg View.active h.view

theorem shelf (h : Twin job s t) : s.shelf.Alike t.shelf :=
  ⟨congrArg View.loader h.view, congrArg View.bundles h.view⟩

theorem discarding (h : Twin job s t) :
    s.scopes.map Scope.isDiscarding = t.scopes.map Scope.isDiscarding :=
  congrArg View.discarding h.view

theorem discards (h : Twin job s t) : s.discards ↔ t.discards := by
  rw [State.discards, State.discards, h.discarding]

theorem reader (h : Twin job s t) : s.reader.Same t.reader :=
  ⟨h.left.valid, h.right.valid, congrArg View.script h.view, congrArg View.position h.view,
    congrArg View.marks h.view⟩

end Twin

/-! ## What stays as it was -/

/-- What a computation leaves as it was.  The reader may have moved on, and single-pass sequences
may have given rows. -/
structure Frame (s s' : State σ) : Prop where
  reader : s.reader.Onward s'.reader
  spent : s.streams.Spent s'.streams
  loader : s'.shelf.loader = s.shelf.loader
  discarding : s'.scopes.map Scope.isDiscarding = s.scopes.map Scope.isDiscarding
  sections : s'.sections = s.sections
  active : s'.active = s.active

theorem Frame.refl (s : State σ) : Frame s s :=
  ⟨.refl _, .refl _, rfl, rfl, rfl, rfl⟩

theorem Frame.trans {s s' s'' : State σ} (h : Frame s s') (h' : Frame s' s'') : Frame s s'' :=
  ⟨h.reader.trans h'.reader, h.spent.trans h'.spent, h'.loader.trans h.loader,
    h'.discarding.trans h.discarding, h'.sections.trans h.sections, h'.active.trans h.active⟩

/-- Nothing that can be seen has changed. -/
theorem Frame.of_view {s s' : State σ} (h : s'.view = s.view) : Frame s s' where
  reader := ⟨congrArg View.script h, congrArg View.marks h,
    Nat.le_of_eq (congrArg View.position h).symm⟩
  spent := by
    rw [show s'.streams = s.streams from congrArg View.streams h]
    exact .refl _
  loader := congrArg View.loader h
  discarding := congrArg View.discarding h
  sections := congrArg View.sections h
  active := congrArg View.active h

/-! ## Agreement -/

/-- States that look the same from outside after a failure. -/
structure Visible (s t : State σ) : Prop where
  sink : s.sink = t.sink
  streams : s.streams = t.streams
  shelf : s.shelf.Alike t.shelf

theorem Twin.visible {job : Job} {s t : State σ} (h : Twin job s t) : Visible s t :=
  ⟨h.sink, h.streams, h.shelf⟩

/-- A failure in states that look the same; running out of fuel is none. -/
def Fails (e : Halt) (s t : State σ) : Prop := e ≠ .exhausted ∧ Visible s t

/-- The same result, and related states after an answer. -/
abbrev Agree (Q : α → State σ → State σ → Prop) :
    Except Halt α × State σ → Except Halt α × State σ → Prop := Together Q Fails

/-- Twins, of which the first is framed by the state before it. -/
structure After (job : Job) (s₀ s t : State σ) : Prop where
  twin : Twin job s t
  frame : Frame s₀ s

namespace Agree

variable {Q : α → State σ → State σ → Prop} {R : β → State σ → State σ → Prop} {job : Job}
  {s t : State σ}

theorem bind {c d : Run σ α} {k l : α → Run σ β} (h : Agree Q (c s) (d t))
    (hk : ∀ a s' t', Q a s' t' → Agree R (k a s') (l a t')) :
    Agree R ((c >>= k) s) ((d >>= l) t) := by
  rw [Run.bind_apply, Run.bind_apply]
  cases hc : c s with
  | mk x s' =>
    cases hd : d t with
    | mk y t' =>
      rw [hc, hd] at h
      cases h with
      | ok h => exact hk _ _ _ h
      | error h => exact .error h

theorem map {f : α → β} {c d : Run σ α} (h : Agree (fun a => R (f a)) (c s) (d t)) :
    Agree R ((f <$> c) s) ((f <$> d) t) := by
  rw [Run.map_apply, Run.map_apply]
  cases hc : c s with
  | mk x s' =>
    cases hd : d t with
    | mk y t' =>
      rw [hc, hd] at h
      cases h with
      | ok h => exact .ok h
      | error h => exact .error h

theorem discard {P : State σ → State σ → Prop} {c d : Run σ α}
    (h : Agree (fun _ => P) (c s) (d t)) :
    Agree (fun _ => P) ((Functor.discard c : Run σ PUnit) s)
      ((Functor.discard d : Run σ PUnit) t) :=
  map (f := Function.const α PUnit.unit) h

theorem pure {a : α} (h : Q a s t) :
    Agree Q ((Pure.pure a : Run σ α) s) ((Pure.pure a : Run σ α) t) := .ok h

theorem fail (h : Twin job s t) (e : RenderError) :
    Agree Q ((Run.fail e : Run σ α) s) ((Run.fail e : Run σ α) t) :=
  .error ⟨(fun heq => nomatch heq), h.visible⟩

theorem answered (h : Twin job s t) (x : Except DataError α) (hQ : ∀ a, x = .ok a → Q a s t) :
    Agree Q ((Run.answered x : Run σ α) s) ((Run.answered x : Run σ α) t) := by
  cases x with
  | ok a => exact .ok (hQ a rfl)
  | error e => exact fail h _

theorem mono {Q' : α → State σ → State σ → Prop} {x y : Except Halt α × State σ}
    (h : Agree Q x y) (hQ : ∀ a s' t', Q a s' t' → Q' a s' t') : Agree Q' x y :=
  h.imp hQ fun _ _ _ h => h

/-- What is known behind a computation that stays together with itself. -/
theorem diagonal {x : Except Halt α × State σ}
    {a : α} {s' : State σ} (h : Agree Q x x) (hx : x = (.ok a, s')) : Q a s' s' := by
  subst hx
  generalize hy : ((Except.ok a : Except Halt α), s') = y at h
  cases h with
  | ok h =>
    obtain ⟨ha, hs⟩ := Prod.mk.inj hy
    rw [Except.ok.inj ha, hs]
    exact h
  | error _ => cases hy

end Agree

/-! ## Changing one part -/

section

variable {job : Job} {s t : State σ}

theorem After.refl (h : Twin job s t) : After job s s t := ⟨h, .refl s⟩

theorem After.trans {s' t' s'' t'' : State σ} (h : After job s s' t') (h' : After job s' s'' t'') :
    After job s s'' t'' := ⟨h'.twin, h.frame.trans h'.frame⟩

/-- Both readers are changed in the same way, within their script. -/
theorem Twin.withReader {r r' : Reader} (h : Twin job s t) (same : r.Same r')
    (hs : r.script = s.reader.script) :
    Twin job { s with reader := r } { t with reader := r' } := by
  have hs' : r'.script = t.reader.script := by
    rw [← same.script, hs, h.reader.script]
  have hleft : Sound job { s with reader := r } := by
    obtain ⟨name, outer, ha, -, source, hsource, hr⟩ := h.left.reader
    exact ⟨⟨name, outer, ha, same.left, source, hsource, hs.trans hr⟩, h.left.different,
      h.left.named, h.left.opens, h.left.kept⟩
  have hright : Sound job { t with reader := r' } := by
    obtain ⟨name, outer, ha, -, source, hsource, hr⟩ := h.right.reader
    exact ⟨⟨name, outer, ha, same.right, source, hsource, hs'.trans hr⟩, h.right.different,
      h.right.named, h.right.opens, h.right.kept⟩
  refine ⟨hleft, hright, ?_⟩
  show { s.view with script := r.script, position := r.position, marks := r.marks } =
    { t.view with script := r'.script, position := r'.position, marks := r'.marks }
  rw [h.view, same.script, same.position, same.marks]

/-- Nothing happens. -/
theorem Agree.same {a : α} (h : Twin job s t) :
    Agree (fun _ => After job s) (Except.ok a, s) (Except.ok a, t) := .ok (.refl h)

/-- The readers read on in the same way. -/
theorem Twin.setReader {r r' : Reader} (h : Twin job s t) (same : r.Same r')
    (on : s.reader.Onward r) :
    After job s { s with reader := r } { t with reader := r' } :=
  ⟨h.withReader same on.script, on, .refl _, rfl, rfl, rfl, rfl⟩

theorem Twin.setSink (h : Twin job s t) (sink : σ) :
    After job s { s with sink := sink } { t with sink := sink } := by
  refine ⟨⟨h.left.congr rfl rfl rfl rfl, h.right.congr rfl rfl rfl rfl, ?_⟩, .refl _,
    .refl _, rfl, rfl, rfl, rfl⟩
  show { s.view with sink := sink } = { t.view with sink := sink }
  rw [h.view]

theorem Twin.setStreams (h : Twin job s t) {streams : Streams} (hs : s.streams.Spent streams) :
    After job s { s with streams := streams } { t with streams := streams } := by
  refine ⟨⟨h.left.congr rfl rfl rfl rfl, h.right.congr rfl rfl rfl rfl, ?_⟩, .refl _,
    hs, rfl, rfl, rfl, rfl⟩
  show { s.view with streams := streams } = { t.view with streams := streams }
  rw [h.view]

/-- The shelf has been used. -/
theorem Twin.setShelf (h : Twin job s t) {shelf shelf' : Shelf} (hs : shelf.Alike shelf')
    (hl : shelf.loader = s.shelf.loader) (hl' : shelf'.loader = t.shelf.loader) :
    After job s { s with shelf := shelf } { t with shelf := shelf' } := by
  have hleft : Sound job { s with shelf := shelf } := by
    have h := h.left
    exact ⟨hl ▸ h.reader, h.different, hl ▸ h.named, hl ▸ h.opens, hl ▸ h.kept⟩
  have hright : Sound job { t with shelf := shelf' } := by
    have h := h.right
    exact ⟨hl' ▸ h.reader, h.different, hl' ▸ h.named, hl' ▸ h.opens, hl' ▸ h.kept⟩
  refine ⟨⟨hleft, hright, ?_⟩, .refl _, .refl _, hl, rfl, rfl, rfl⟩
  show { s.view with loader := shelf.loader, bundles := shelf.bundles } =
    { t.view with loader := shelf'.loader, bundles := shelf'.bundles }
  rw [h.view, hs.loader, hs.bundles]

/-- The texts have become known. -/
theorem Twin.setBundle (h : Twin job s t) (bundle : Option (Option Bundle)) :
    After job s { s with bundle := bundle } { t with bundle := bundle } := by
  refine ⟨⟨h.left.congr rfl rfl rfl rfl, h.right.congr rfl rfl rfl rfl, ?_⟩, .refl _,
    .refl _, rfl, rfl, rfl, rfl⟩
  show { s.view with bundle := bundle } = { t.view with bundle := bundle }
  rw [h.view]

/-- The sections do not matter to the invariant. -/
theorem Twin.setSections (h : Twin job s t) (sections : List String) :
    Twin job { s with sections := sections } { t with sections := sections } := by
  refine ⟨h.left.congr rfl rfl rfl rfl, h.right.congr rfl rfl rfl rfl, ?_⟩
  show { s.view with sections := sections } = { t.view with sections := sections }
  rw [h.view]

/-- Scopes may differ in the readers that they keep, if all of these can be used. -/
theorem Twin.setScopes (h : Twin job s t) {scopes scopes' : List Scope}
    (hs : Sound job { s with scopes := scopes }) (hs' : Sound job { t with scopes := scopes' })
    (hd : scopes.map Scope.isDiscarding = scopes'.map Scope.isDiscarding) :
    Twin job { s with scopes := scopes } { t with scopes := scopes' } := by
  refine ⟨hs, hs', ?_⟩
  show { s.view with discarding := scopes.map Scope.isDiscarding } =
    { t.view with discarding := scopes'.map Scope.isDiscarding }
  rw [h.view, hd]

end

/-! ## Reading -/

section

variable {job : Job} {s t : State σ}

theorem agree_readChar (h : Twin job s t) :
    Agree (fun c s' t' => After job s s' t' ∧ (c.isSome → s'.reader.reach < s.reader.reach))
      (Run.readChar s) (Run.readChar t) := by
  have step := (Reader.paired_same s.reader).next ⟨h.reader, .refl _⟩
  change Together _ _ s.reader.read t.reader.read at step
  unfold Run.readChar
  cases hs : s.reader.read with
  | mk answer r =>
    cases ht : t.reader.read with
    | mk answer' r' =>
      rw [hs, ht] at step
      cases step with
      | error _ => exact .error ⟨(fun heq => nomatch heq), h.sink, h.streams, h.shelf⟩
      | ok step => exact .ok ⟨h.setReader step.1.1 step.1.2, step.2⟩

/-- A marker that includes something includes a target. -/
def Targeted (job : Job) (l : Loader) (m : Marker) : Prop :=
  m.kind = .include → resolveRelative job.template m.name ∈ l.targets job.template

theorem agree_readMarker (h : Twin job s t) :
    Agree (fun m s' t' => After job s s' t' ∧ s'.reader.reach < s.reader.reach ∧
        Targeted job s.shelf.loader m)
      (Run.readMarker s) (Run.readMarker t) := by
  have step := (Reader.paired_same s.reader).read ⟨h.reader, .refl _⟩
  unfold Run.readMarker
  cases hs : Marker.read s.reader with
  | mk answer r =>
    cases ht : Marker.read t.reader with
    | mk answer' r' =>
      rw [hs, ht] at step
      cases step with
      | error _ => exact .error ⟨(fun heq => nomatch heq), h.sink, h.streams, h.shelf⟩
      | ok step =>
        obtain ⟨name, -, -, hv, source, hsource, hscript⟩ := h.left.reader
        exact .ok ⟨h.setReader step.1.1 step.1.2, step.2,
          Loader.mem_targets hsource hv hscript hs⟩

/-- What holds behind copied text: the reader has read the marker, and it includes a target. -/
structure Copied (job : Job) (s₀ : State σ) (m : Option Marker) (s t : State σ) : Prop where
  after : After job s₀ s t
  reach : m.isSome → s.reader.reach < s₀.reader.reach
  target : ∀ m', m = some m' → Targeted job s₀.shelf.loader m'

theorem Copied.of_after {s₀ s₁ t₁ s t : State σ} {m : Option Marker} (h : After job s₀ s₁ t₁)
    (hr : s₁.reader.reach ≤ s₀.reader.reach) (hc : Copied job s₁ m s t) : Copied job s₀ m s t :=
  ⟨h.trans hc.after, fun hm => Nat.lt_of_lt_of_le (hc.reach hm) hr,
    fun m' hm => h.frame.loader ▸ hc.target m' hm⟩

theorem After.reach_le {s' t' : State σ} (h : Sound job s) (ha : After job s s' t') :
    s'.reader.reach ≤ s.reader.reach :=
  ha.frame.reader.reach_le h.valid ha.twin.left.valid

end

/-! ## Copying -/

section

variable [Sink σ] {job : Job} {s t : State σ}

theorem agree_emit (h : Twin job s t) (muted : Bool) (text : String) :
    Agree (fun _ => After job s) (Run.emit muted text s) (Run.emit muted text t) := by
  cases muted with
  | true => exact .ok (.refl h)
  | false =>
    have step := h.setSink (Sink.write s.sink text)
    refine .ok (Q := fun _ => After job s) (a := ()) ?_
    show After job s { s with sink := Sink.write s.sink text }
      { t with sink := Sink.write t.sink text }
    rw [← h.sink]
    exact step

theorem checkSink_apply (muted : Bool) (s : State σ) :
    Run.checkSink muted s =
      if !muted && Sink.failed s.sink then (.error (.failed .sinkFailed), s) else (.ok (), s) := by
  unfold Run.checkSink
  rw [Run.bind_apply]
  show (if !muted && Sink.failed s.sink then Run.fail RenderError.sinkFailed else pure ()) s = _
  split <;> rfl

theorem agree_checkSink (h : Twin job s t) (muted : Bool) :
    Agree (fun _ => After job s) (Run.checkSink muted s) (Run.checkSink muted t) := by
  rw [checkSink_apply, checkSink_apply, ← h.sink]
  by_cases hf : (!muted && Sink.failed s.sink) = true
  · rw [if_pos hf, if_pos hf]
    exact .fail h _
  · rw [if_neg hf, if_neg hf]
    exact .ok (.refl h)

/-- Text is copied alike, with any fuel above what can be reached. -/
theorem agree_copyText (muted : Bool) (n : Nat) :
    ∀ {m : Nat} {s t : State σ}, Twin job s t → s.reader.reach < n → s.reader.reach < m →
      Agree (Copied job s) (Run.copyText muted n s) (Run.copyText muted m t) := by
  induction n with
  | zero =>
    intro m s t _ hn
    exact absurd hn (Nat.not_lt_zero _)
  | succ n ih =>
    intro m s t h hn hm
    obtain ⟨m, rfl⟩ : ∃ k, m = k + 1 := ⟨m - 1, by omega⟩
    -- copying goes on behind a character, in states that come after these
    have goOn {s₁ t₁ : State σ} (text : String) (ha : After job s s₁ t₁)
        (hr : s₁.reader.reach < s.reader.reach) :
        Agree (Copied job s) ((Run.emit muted text >>= fun _ => Run.copyText muted n) s₁)
          ((Run.emit muted text >>= fun _ => Run.copyText muted m) t₁) := by
      refine .bind (agree_emit ha.twin muted text) fun _ s₂ t₂ ha₂ => ?_
      have hr₂ := ha₂.reach_le ha.twin.left
      refine (ih ha₂.twin (by omega) (by omega)).mono fun _ s₃ t₃ hc => ?_
      exact hc.of_after (ha.trans ha₂) (by omega)
    rw [Run.copyText, Run.copyText]
    -- the sink is asked, and a character is read
    refine .bind (agree_checkSink h muted) fun _ s₁ t₁ h₁ => ?_
    have hr₁ := h₁.reach_le h.left
    refine .bind (agree_readChar h₁.twin) fun c s₂ t₂ ⟨h₂, hr₂⟩ => ?_
    have h₂ := h₁.trans h₂
    cases c with
    | none => exact .pure ⟨h₂, (fun hm => nomatch hm), fun _ hm => nomatch hm⟩
    | some c =>
      have hr₂ := Nat.lt_of_lt_of_le (hr₂ rfl) hr₁
      dsimp only
      by_cases hc : c = '{'
      · -- one more character tells whether this is a marker
        rw [if_pos hc, if_pos hc]
        refine .bind (agree_readChar h₂.twin) fun c s₃ t₃ ⟨h₃, hr₃⟩ => ?_
        have hle₃ := h₃.reach_le h₂.twin.left
        have h₃ := h₂.trans h₃
        cases c with
        | none =>
          refine .bind (agree_emit h₃.twin muted _) fun _ s₄ t₄ h₄ => ?_
          exact .pure ⟨h₃.trans h₄, (fun hm => nomatch hm), fun _ hm => nomatch hm⟩
        | some c =>
          dsimp only
          by_cases hc : c = '{'
          · rw [if_pos hc, if_pos hc]
            refine .map ((agree_readMarker h₃.twin).mono fun m s₄ t₄ ⟨h₄, hr₄, ht₄⟩ => ?_)
            refine ⟨h₃.trans h₄, fun _ => by omega, fun m' hm => ?_⟩
            rw [← Option.some.inj hm, ← h₃.frame.loader]
            exact ht₄
          · rw [if_neg hc, if_neg hc]
            refine .bind (agree_emit h₃.twin muted _) fun _ s₄ t₄ h₄ => ?_
            have hle₄ := h₄.reach_le h₃.twin.left
            exact goOn _ (h₃.trans h₄) (by omega)
      · rw [if_neg hc, if_neg hc]
        exact goOn _ h₂ hr₂

end

end Stencil
