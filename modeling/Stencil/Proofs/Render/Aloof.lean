import Stencil.Proofs.Render.Compositional
import Stencil.Proofs.Render.Included

/-!
# Computations without sink and sequences

Most of what a render does between two writes asks neither its sink nor a single-pass sequence.  Such
a computation does the same whatever these are, and leaves them as they were.

- `State.reseat`: a state with another sink and other sequences;
- `Aloof`: the same computation whatever these are; `Aloof.bind` is the rule for one after the other;
- `Aloof.readChar`, `Aloof.texts`, `Aloof.takeReader`, ...: reading, looking up and opening.
-/

namespace Stencil

open Body

variable {σ τ α β : Type}

/-- A state with another sink and other single-pass sequences. -/
def State.reseat (s : State σ) (w : τ) (streams : Streams) : State τ :=
  { sink := w
    reader := s.reader
    streams := streams
    shelf := s.shelf
    bundle := s.bundle
    scopes := s.scopes
    sections := s.sections
    active := s.active }

/-- A computation that asks neither the sink nor a single-pass sequence, for two kinds of sinks. -/
def Aloof (c : Run σ α) (d : Run τ α) : Prop :=
  ∀ s w streams, d (s.reseat w streams) = ((c s).1, (c s).2.reseat w streams) ∧
    (c s).2.sink = s.sink ∧ (c s).2.streams = s.streams

namespace Aloof

theorem pure (a : α) : Aloof (Pure.pure a : Run σ α) (Pure.pure a : Run τ α) :=
  fun _ _ _ => ⟨rfl, rfl, rfl⟩

theorem fail (e : RenderError) : Aloof (Run.fail e : Run σ α) (Run.fail e : Run τ α) :=
  fun _ _ _ => ⟨rfl, rfl, rfl⟩

theorem exhausted : Aloof (throw .exhausted : Run σ α) (throw .exhausted : Run τ α) :=
  fun _ _ _ => ⟨rfl, rfl, rfl⟩

theorem bind {c : Run σ α} {d : Run τ α} {k : α → Run σ β} {l : α → Run τ β} (h : Aloof c d)
    (hk : ∀ a, Aloof (k a) (l a)) : Aloof (c >>= k) (d >>= l) := by
  intro s w streams
  obtain ⟨hd, hsink, hstreams⟩ := h s w streams
  rw [Run.bind_apply, Run.bind_apply, hd]
  generalize c s = x at hsink hstreams
  obtain ⟨answer, s'⟩ := x
  cases answer with
  | error e => exact ⟨rfl, hsink, hstreams⟩
  | ok a =>
    obtain ⟨hl, hsink', hstreams'⟩ := hk a s' w streams
    exact ⟨hl, hsink'.trans hsink, hstreams'.trans hstreams⟩

theorem compositional : Compositional fun _ (c : Run σ _) (d : Run τ _) => Aloof c d where
  answer := pure
  halt _ := fun _ _ _ => ⟨rfl, rfl, rfl⟩
  bind := bind

/-! ## Reading -/

theorem readChar : Aloof (Run.readChar : Run σ (Option Char)) (Run.readChar : Run τ _) := by
  intro s w streams
  unfold Run.readChar
  dsimp only [State.reseat]
  obtain ⟨answer, r⟩ := s.reader.read
  cases answer <;> exact ⟨rfl, rfl, rfl⟩

theorem readMarker : Aloof (Run.readMarker : Run σ Marker) (Run.readMarker : Run τ _) := by
  intro s w streams
  unfold Run.readMarker
  dsimp only [State.reseat]
  obtain ⟨answer, r⟩ := Marker.read s.reader
  cases answer <;> exact ⟨rfl, rfl, rfl⟩

theorem markIf (more : Bool) :
    Aloof (Body.markIf more : Run σ Unit) (Body.markIf more : Run τ Unit) := by
  cases more <;> exact fun _ _ _ => ⟨rfl, rfl, rfl⟩

theorem rewind : Aloof (Body.rewind : Run σ Unit) (Body.rewind : Run τ Unit) :=
  fun _ _ _ => ⟨rfl, rfl, rfl⟩

theorem sectionEnd (name : String) :
    Aloof (Body.sectionEnd name : Run σ Exit) (Body.sectionEnd name : Run τ Exit) := by
  intro s w streams
  obtain ⟨sink, reader, old, shelf, bundle, scopes, sections, active⟩ := s
  rw [sectionEnd_apply, sectionEnd_apply]
  dsimp only [State.reseat]
  cases sections with
  | nil => exact ⟨rfl, rfl, rfl⟩
  | cons opened outer =>
    dsimp only
    by_cases hname : opened = name
    · rw [if_pos hname, if_pos hname]
      exact ⟨rfl, rfl, rfl⟩
    · rw [if_neg hname, if_neg hname]
      exact ⟨rfl, rfl, rfl⟩

/-! ## Opening -/

theorem openReader (absent : String → RenderError) (name : String) :
    Aloof (Run.openReader absent name : Run σ Reader) (Run.openReader absent name : Run τ _) := by
  intro s w streams
  rw [openReader_apply, openReader_apply]
  dsimp only [State.reseat]
  cases s.shelf.loader.openNamed name <;> exact ⟨rfl, rfl, rfl⟩

theorem reopen (resolved : String) (kept : Option Reader) :
    Aloof (Body.reopen resolved kept : Run σ Reader) (Body.reopen resolved kept : Run τ _) := by
  cases kept with
  | some r => exact pure _
  | none => exact openReader _ _

theorem takeReader (name : String) :
    Aloof (Body.takeReader name : Run σ (Option Reader)) (Body.takeReader name : Run τ _) := by
  intro s w streams
  unfold Body.takeReader
  dsimp only [State.reseat]
  split <;> exact ⟨rfl, rfl, rfl⟩

theorem keepReader (name : String) (r : Reader) :
    Aloof (Body.keepReader name r : Run σ Unit) (Body.keepReader name r : Run τ Unit) := by
  intro s w streams
  obtain ⟨sink, reader, old, shelf, bundle, scopes, sections, active⟩ := s
  cases scopes with
  | nil => exact ⟨rfl, rfl, rfl⟩
  | cons scope scopes => cases scope <;> exact ⟨rfl, rfl, rfl⟩

theorem texts (job : Job) :
    Aloof (Run.texts job : Run σ (Option Bundle)) (Run.texts job : Run τ _) := by
  intro s w streams
  obtain ⟨sink, reader, old, shelf, bundle, scopes, sections, active⟩ := s
  unfold Run.texts
  dsimp only [State.reseat]
  cases bundle with
  | some found => exact ⟨rfl, rfl, rfl⟩
  | none =>
    cases job.bundle with
    | some given => exact ⟨rfl, rfl, rfl⟩
    | none =>
      dsimp only
      obtain ⟨answer, shelf⟩ := shelf.bundle (bundleBase job.template) job.settings.locale
      cases answer <;> exact ⟨rfl, rfl, rfl⟩

/-! ## Looking up -/

theorem answered (x : Except DataError α) :
    Aloof (Run.answered x : Run σ α) (Run.answered x : Run τ α) := compositional.answered x

theorem resolve (job : Job) (v : Value) (name : String) :
    Aloof (Body.resolve job v name : Run σ (Option Scalar)) (Body.resolve job v name : Run τ _) :=
  compositional.resolve (pure ()) (texts job) v name

end Aloof

end Stencil
