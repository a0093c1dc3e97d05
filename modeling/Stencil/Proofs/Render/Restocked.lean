import Stencil.Proofs.Render.Compositional
import Stencil.Proofs.Render.Standing

/-!
# What a render knows of its loader

A render knows what its loader has: what has been opened, and which texts have been found.  It looks
there when it opens a template and when it looks for texts, and all else goes on without.  So a
render can be compared with one that knows something else, as long as the answers are the same.

- `Stock`: what a render knows of its loader;
- `Unasked`: computations that do without, reading and writing among them (`Unasked.copies`,
  `Unasked.requests`);
- `Tied`: the same computation, or another one for bodies, with stocks that belong together;
- `Tied.loops`, `Tied.templates`: sections, their elements, and included templates.
-/

namespace Stencil

open Body

variable {σ α β : Type}

/-- What a render knows of its loader: the shelf, and the texts once they have been looked for. -/
structure Stock where
  shelf : Shelf
  texts : Option (Option Bundle)

/-- A resource is opened. -/
def Stock.opening (k : Stock) (name : String) : Stock :=
  { k with shelf := { k.shelf with opened := name :: k.shelf.opened } }

def State.stock (s : State σ) : Stock := ⟨s.shelf, s.bundle⟩

/-- A state with another stock. -/
def State.restock (s : State σ) (k : Stock) : State σ :=
  { s with shelf := k.shelf, bundle := k.texts }

/-! ## Computations that do without -/

/-- A computation that does not look at the stock, and leaves it as it was. -/
def Unasked (c : Run σ α) : Prop :=
  ∀ s k, c (s.restock k) = ((c s).1, (c s).2.restock k) ∧ (c s).2.stock = s.stock

namespace Unasked

theorem pure (a : α) : Unasked (Pure.pure a : Run σ α) := fun _ _ => ⟨rfl, rfl⟩

theorem fail (e : RenderError) : Unasked (Run.fail e : Run σ α) := fun _ _ => ⟨rfl, rfl⟩

theorem bind {c : Run σ α} {f : α → Run σ β} (hc : Unasked c) (hf : ∀ a, Unasked (f a)) :
    Unasked (c >>= f) := by
  intro s k
  obtain ⟨heq, hstock⟩ := hc s k
  rw [Run.bind_apply, Run.bind_apply, heq]
  generalize c s = x at hstock
  obtain ⟨answer, s'⟩ := x
  cases answer with
  | error e => exact ⟨rfl, hstock⟩
  | ok a =>
    obtain ⟨heq', hstock'⟩ := hf a s' k
    exact ⟨heq', hstock'.trans hstock⟩

theorem compositional : Compositional (OfFirst fun _ (c : Run σ _) => Unasked c) where
  answer := pure
  halt _ := fun _ _ => ⟨rfl, rfl⟩
  bind := bind

theorem request (send : Streams → α × Streams) : Unasked (Run.request send : Run σ α) :=
  fun _ _ => ⟨rfl, rfl⟩

theorem requests : Compositional.Requests (OfFirst fun _ (c : Run σ _) => Unasked c) where
  toCompositional := compositional
  stepsLeft _ := fun _ _ => ⟨rfl, rfl⟩
  nextRow _ := request _
  hasNext _ := request _

theorem close (e : Elements) : Unasked (e.close : Run σ (Except DataError Unit)) := by
  cases e with
  | list items => exact pure _
  | stream id => exact request (Streams.close id)

theorem takeReader (name : String) : Unasked (Body.takeReader name : Run σ (Option Reader)) := by
  intro s k
  unfold Body.takeReader
  dsimp only [State.restock]
  split <;> exact ⟨rfl, rfl⟩

theorem keepReader (name : String) (r : Reader) : Unasked (Body.keepReader name r : Run σ Unit) := by
  intro s k
  obtain ⟨sink, reader, streams, shelf, bundle, scopes, sections, active⟩ := s
  cases scopes with
  | nil => exact ⟨rfl, rfl⟩
  | cons scope scopes => cases scope <;> exact ⟨rfl, rfl⟩

theorem copies [Sink σ] : Compositional.Copies (OfFirst fun _ (c : Run σ _) => Unasked c) where
  toCompositional := compositional
  readChar := by
    intro s k
    unfold Run.readChar
    dsimp only [State.restock]
    obtain ⟨answer, r⟩ := s.reader.read
    cases answer <;> exact ⟨rfl, rfl⟩
  readMarker := by
    intro s k
    unfold Run.readMarker
    dsimp only [State.restock]
    obtain ⟨answer, r⟩ := Marker.read s.reader
    cases answer <;> exact ⟨rfl, rfl⟩
  checkSink muted := by
    intro s k
    rw [checkSink_apply, checkSink_apply]
    show (if !muted && Sink.failed s.sink then _ else _) = _ ∧ _
    split <;> exact ⟨rfl, rfl⟩
  emit muted text := by
    cases muted <;> exact fun _ _ => ⟨rfl, rfl⟩

end Unasked

/-! ## Stocks that belong together -/

/-- A relation between stocks of one loader that lasts when the same resource is opened. -/
structure Alongside (Q : Stock → Stock → Prop) : Prop where
  loader {k k' : Stock} : Q k k' → k'.shelf.loader = k.shelf.loader
  opening {k k' : Stock} (name : String) : Q k k' → Q (k.opening name) (k'.opening name)

/-- Two computations that come to the same when their stocks belong together, but for the stocks,
which still do. -/
def Tied (Q : Stock → Stock → Prop) (c d : Run σ α) : Prop :=
  ∀ s k, Q s.stock k → ∃ k', d (s.restock k) = ((c s).1, (c s).2.restock k') ∧ Q (c s).2.stock k'

namespace Tied

variable {Q : Stock → Stock → Prop} {c d : Run σ α} {f g : α → Run σ β}

theorem of_unasked (h : Unasked c) : Tied Q c c := by
  intro s k hk
  obtain ⟨heq, hstock⟩ := h s k
  refine ⟨k, heq, ?_⟩
  rw [hstock]
  exact hk

theorem bind (h : Tied Q c d) (hf : ∀ a, Tied Q (f a) (g a)) : Tied Q (c >>= f) (d >>= g) := by
  intro s k hk
  obtain ⟨k₁, heq, hk₁⟩ := h s k hk
  rw [Run.bind_apply, Run.bind_apply, heq]
  generalize c s = x at hk₁
  obtain ⟨answer, s'⟩ := x
  cases answer with
  | error e => exact ⟨k₁, rfl, hk₁⟩
  | ok a => exact hf a s' k₁ hk₁

/-- Both begin in the same way, without the stock. -/
theorem behind (h : Unasked c) (hf : ∀ a, Tied Q (f a) (g a)) : Tied Q (c >>= f) (c >>= g) :=
  bind (of_unasked h) hf

theorem map (h : Tied Q c d) (q : α → β) : Tied Q (q <$> c) (q <$> d) := by
  intro s k hk
  obtain ⟨k', heq, hk'⟩ := h s k hk
  rw [Run.map_apply, Run.map_apply, heq]
  generalize c s = x at hk'
  obtain ⟨answer, s'⟩ := x
  cases answer <;> exact ⟨k', rfl, hk'⟩

/-- Looking at the state, where the stock does not matter. -/
theorem look {f g : State σ → Run σ β} (hf : ∀ s k, Q s.stock k → Tied Q (f s) (g (s.restock k))) :
    Tied Q (get >>= f) (get >>= g) := fun s k hk => hf s k hk s k hk

theorem inScope (h : Tied Q c d) (scope : Scope) :
    Tied Q (Run.inScope scope c) (Run.inScope scope d) := by
  rw [Run.inScope_silent, Run.inScope_silent]
  exact behind (fun _ _ => ⟨rfl, rfl⟩) fun _ => h.bind fun a =>
    of_unasked (.bind (fun _ _ => ⟨rfl, rfl⟩) fun _ => .pure a)

theorem inSection (h : Tied Q c d) (name : String) :
    Tied Q (Run.inSection name c) (Run.inSection name d) :=
  behind (fun _ _ => ⟨rfl, rfl⟩) fun _ => h.bind fun a =>
    of_unasked (.bind (fun _ _ => ⟨rfl, rfl⟩) fun _ => .pure a)

/-! ### Sections -/

theorem compositional : Compositional fun _ (c d : Run σ _) => Tied Q c d where
  answer a := of_unasked (.pure a)
  halt _ := of_unasked fun _ _ => ⟨rfl, rfl⟩
  bind := bind

variable [Sink σ]

theorem copies : Compositional.Copies fun _ (c d : Run σ _) => Tied Q c d where
  toCompositional := compositional
  readChar := of_unasked Unasked.copies.readChar
  readMarker := of_unasked Unasked.copies.readMarker
  checkSink muted := of_unasked (Unasked.copies.checkSink muted)
  emit muted text := of_unasked (Unasked.copies.emit muted text)

/-- A sequence is closed behind a failure as well, with the stocks that the failure has left. -/
theorem loops : Compositional.Loops fun _ (c d : Run σ _) => Tied Q c d where
  toCompositional := compositional
  scanning h := h.inScope _
  inSection name h := h.inSection name
  holds found := of_unasked (Unasked.requests.holds (fun _ => .pure ()) found)
  caching h := h.inScope _
  bound e := of_unasked (Unasked.requests.bound e)
  pull e := by
    rw [pull_silent]
    exact of_unasked (Unasked.requests.next e)
  again h hk := behind (fun _ _ => ⟨rfl, rfl⟩) fun _ => h.bind fun _ =>
    behind (fun _ _ => ⟨rfl, rfl⟩) fun _ => hk
  closing {b c name separator muted e} h := by
    have written : Tied Q (ExceptT.lift (Body.iterated b name separator muted e).run)
        (ExceptT.lift (Body.iterated c name separator muted e).run) := by
      intro s k hk
      obtain ⟨k', heq, hk'⟩ := h s k hk
      refine ⟨k', ?_, hk'⟩
      rw [Run.lift_run_apply, Run.lift_run_apply, heq]
    unfold Body.sequence
    simp only [Run.unheard_bind]
    refine written.bind fun written => of_unasked (.bind (.close e) fun closing => ?_)
    refine .bind ?_ fun _ => Unasked.compositional.answered closing
    cases written with
    | ok _ => exact .pure ()
    | error halt => exact fun _ _ => ⟨rfl, rfl⟩

/-! ### Included templates -/

omit [Sink σ]

/-- The same resource is opened from both stocks. -/
theorem openReader (hQ : Alongside Q) (absent : String → RenderError) (name : String) :
    Tied Q (Run.openReader absent name : Run σ Reader) (Run.openReader absent name) := by
  intro s k hk
  have hloader : k.shelf.loader = s.shelf.loader := hQ.loader hk
  rw [openReader_apply, openReader_apply, show (s.restock k).shelf.loader = _ from hloader]
  cases s.shelf.loader.openNamed name with
  | error e => exact ⟨k, rfl, hk⟩
  | ok source => exact ⟨k.opening name, rfl, hQ.opening name hk⟩

theorem reopen (hQ : Alongside Q) (resolved : String) (kept : Option Reader) :
    Tied Q (Body.reopen resolved kept : Run σ Reader) (Body.reopen resolved kept) := by
  cases kept with
  | some r => exact of_unasked (.pure _)
  | none => exact openReader hQ _ _

theorem templates : Compositional.Templates fun _ (c d : Run σ _) => Tied Q c d where
  toCompositional := compositional
  look h := look fun s k _ => h s (s.restock k) ⟨rfl, rfl, rfl, rfl⟩
  reaching _ := of_unasked (.pure ())
  supplied _ _ := of_unasked (.pure ())
  takeReader name := of_unasked (.takeReader name)
  keepReader name r := of_unasked (.keepReader name r)
  inTemplate {b c muted v} resolved r h := by
    intro s k hk
    obtain ⟨k', heq, hk'⟩ := h (s.enter resolved r) k hk
    rw [inTemplate_apply, inTemplate_apply,
      show (s.restock k).enter resolved r = (s.enter resolved r).restock k from rfl, heq]
    generalize b muted v (s.enter resolved r) = x at hk'
    obtain ⟨answer, inner⟩ := x
    cases answer <;> exact ⟨k', rfl, hk'⟩

end Tied

end Stencil
