import Stencil.Proofs.Render.Pace

/-!
# The bodies that a section renders

The body of a section is rendered for a dictionary, once or several times, or it is only scanned for
its end.  Next to a sink a list is kept of the dictionaries for which a body has been rendered.

- `Visits`: a sink with such a list;
- `Visits.noting`: a body that puts itself on the list, unless it is muted;
- `Notes`: the same computation with and without the list;
- `Notes.obey`: **a section does the same with the list as without**, and takes nothing off it;
- `Body.visit`, `Body.rendered`: a section with an empty list at its start, and what is on the list
  behind it.
-/

namespace Stencil

open Body

variable {σ α β : Type}

/-- The kinds of markers that start a section. -/
def Body.sectionKinds : List MarkerKind := [.repeating, .conditional, .inverted]

/-! ## The list -/

/-- A sink, and the dictionaries for which a body has been rendered, the latest first. -/
structure Visits (σ : Type) where
  sink : σ
  dictionaries : List Value

instance [Sink σ] : Sink (Visits σ) where
  write l text := { l with sink := Sink.write l.sink text }
  failed l := Sink.failed l.sink

/-- The state without the list. -/
def State.unlisted (s : State (Visits σ)) : State σ := s.withSink s.sink.sink

namespace Visits

/-- Puts a dictionary on the list, unless the body is only scanned for it. -/
def put (muted : Bool) (v : Value) (l : List Value) : List Value := if muted then l else v :: l

/-- A body that puts its dictionary on the list when it is rendered; the bodies inside of it do
not. -/
def noting (b : Bool → Value → Run σ Exit) (muted : Bool) (v : Value) : Run (Visits σ) Exit :=
  fun s =>
    let (exit, inner) := b muted v s.unlisted
    (exit, inner.withSink ⟨inner.sink, put muted v s.sink.dictionaries⟩)

theorem suffix_put (muted : Bool) (v : Value) (l : List Value) : l <:+ put muted v l := by
  cases muted with
  | true => exact List.suffix_refl l
  | false => exact List.suffix_cons v l

end Visits

/-! ## With and without the list -/

/-- The same computation with and without the list, and nothing is taken off the list. -/
def Notes (c : Run (Visits σ) α) (d : Run σ α) : Prop :=
  ∀ s : State (Visits σ), d s.unlisted = ((c s).1, (c s).2.unlisted) ∧
    s.sink.dictionaries <:+ (c s).2.sink.dictionaries

namespace Notes

theorem of_silent {c : Run (Visits σ) α} {d : Run σ α} (h : Silent c d) : Notes c d := by
  intro s
  obtain ⟨hd, hsink⟩ := h s s.sink.sink
  refine ⟨?_, ?_⟩
  · rw [State.unlisted, hd, State.unlisted, hsink]
  · exact hsink ▸ List.suffix_refl s.sink.dictionaries

theorem of_aloof {c : Run (Visits σ) α} {d : Run σ α} (h : Aloof c d) : Notes c d :=
  of_silent h.silent

/-- A change that does not touch the list. -/
theorem change {f : State (Visits σ) → State (Visits σ)} {g : State σ → State σ}
    (h : ∀ s, g s.unlisted = (f s).unlisted)
    (hlist : ∀ s, (f s).sink.dictionaries = s.sink.dictionaries) :
    Notes (modify f : Run (Visits σ) Unit) (modify g : Run σ Unit) := by
  intro s
  have same : s.sink.dictionaries <:+ (f s).sink.dictionaries :=
    hlist s ▸ List.suffix_refl (f s).sink.dictionaries
  exact ⟨congrArg (Prod.mk (Except.ok ())) (h s), same⟩

theorem bind {c : Run (Visits σ) α} {d : Run σ α} {k : α → Run (Visits σ) β} {l : α → Run σ β}
    (h : Notes c d) (hk : ∀ a, Notes (k a) (l a)) : Notes (c >>= k) (d >>= l) := by
  intro s
  obtain ⟨hd, hlist⟩ := h s
  rw [Run.bind_apply, Run.bind_apply, hd]
  generalize c s = x at hlist
  obtain ⟨answer, s'⟩ := x
  cases answer with
  | error e => exact ⟨rfl, hlist⟩
  | ok a =>
    obtain ⟨hl, hlist'⟩ := hk a s'
    exact ⟨hl, hlist.trans hlist'⟩

theorem compositional : Compositional fun _ (c : Run (Visits σ) _) (d : Run σ _) => Notes c d where
  answer a := of_aloof (.pure a)
  halt e := of_silent (Silent.compositional.halt e)
  bind := bind

theorem inScope {c : Run (Visits σ) α} {d : Run σ α} (h : Notes c d) (scope : Scope) :
    Notes (Run.inScope scope c) (Run.inScope scope d) := by
  rw [Run.inScope_silent, Run.inScope_silent]
  exact bind (change (fun _ => rfl) fun _ => rfl) fun _ => h.bind fun a =>
    bind (change (fun _ => rfl) fun _ => rfl) fun _ => of_aloof (.pure a)

theorem inSection {c : Run (Visits σ) α} {d : Run σ α} (h : Notes c d) (name : String) :
    Notes (Run.inSection name c) (Run.inSection name d) :=
  bind (change (fun _ => rfl) fun _ => rfl) fun _ => h.bind fun a =>
    bind (change (fun _ => rfl) fun _ => rfl) fun _ => of_aloof (.pure a)

/-! ## Bodies -/

/-- A body that puts itself on the list does so when it has been rendered, and nothing else. -/
theorem noting (b : Bool → Value → Run σ Exit) (muted : Bool) (v : Value) :
    Notes (Visits.noting b muted v) (b muted v) :=
  fun s => ⟨rfl, Visits.suffix_put muted v s.sink.dictionaries⟩

variable [Sink σ]

theorem emit (muted : Bool) (text : String) :
    Notes (Run.emit muted text : Run (Visits σ) Unit) (Run.emit muted text) := by
  cases muted with
  | true => exact of_aloof (.pure ())
  | false => exact change (fun _ => rfl) fun _ => rfl

theorem loops : Compositional.Loops fun _ (c : Run (Visits σ) _) (d : Run σ _) => Notes c d where
  toCompositional := compositional
  scanning h := h.inScope _
  inSection name h := h.inSection name
  holds found := of_silent (.holds found)
  caching h := h.inScope _
  bound e := of_silent (Silent.requests.bound e)
  pull e := by
    rw [pull_silent, pull_silent]
    exact of_silent (Silent.requests.next e)
  again h hk := (of_aloof (.markIf _)).bind fun _ => h.bind fun _ =>
    (of_aloof .rewind).bind fun _ => hk
  closing {b c name separator muted e} h := by
    intro s
    obtain ⟨hd, hlist⟩ := h s
    rw [sequence_apply, sequence_apply, hd]
    generalize Body.iterated b name separator muted e s = x at hlist
    obtain ⟨answer, s'⟩ := x
    cases answer <;> exact ⟨rfl, hlist⟩

variable {b : Bool → Value → Run (Visits σ) Exit} {c : Bool → Value → Run σ Exit}

/-- **A section does the same with the list as without**, and takes nothing off the list. -/
theorem obey (B : ∀ muted v, Notes (b muted v) (c muted v)) (job : Job) (muted : Bool) (v : Value)
    {m : Marker} (hm : m.kind ∈ sectionKinds) :
    Notes (Body.obey b reopen job muted v m) (Body.obey c reopen job muted v m) := by
  have closed := compositional.closed B
  have sequence := loops.sequence closed (loops.separate emit m.separator) m.name muted
  have repeating := loops.repeating closed m muted v sequence
  have conditional (inverted : Bool) := loops.conditional closed m inverted muted v
  unfold Body.obey
  cases hk : m.kind with
  | repeating => exact repeating.bind fun _ => of_aloof (.pure none)
  | conditional => exact (conditional false).bind fun _ => of_aloof (.pure none)
  | inverted => exact (conditional true).bind fun _ => of_aloof (.pure none)
  | _ => simp [sectionKinds, hk] at hm

end Notes

/-! ## Sections -/

/-- A state with an empty list. -/
def State.listed (s : State σ) : State (Visits σ) := s.withSink ⟨s.sink, []⟩

namespace Body

variable [Sink σ] (b : Bool → Value → Run σ Exit) (job : Job) (v : Value) (m : Marker)

/-- What a section comes to, with the dictionaries for which its body has been rendered. -/
def visit (s : State σ) : Except Halt (Option Exit) × State (Visits σ) :=
  obey (Visits.noting b) reopen job false v m s.listed

/-- The dictionaries for which the body of a section is rendered, in their order. -/
def rendered (s : State σ) : List Value := (visit b job v m s).2.sink.dictionaries.reverse

/-- A section is carried out as it is without the list. -/
theorem visit_apply (hm : m.kind ∈ sectionKinds) (s : State σ) :
    obey b reopen job false v m s = ((visit b job v m s).1, (visit b job v m s).2.unlisted) :=
  (Notes.obey (Notes.noting b) job false v hm s.listed).1

end Body

end Stencil
