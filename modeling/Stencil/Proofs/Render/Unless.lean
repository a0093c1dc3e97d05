import Stencil.Proofs.Render.Compositional
import Stencil.Proofs.Render.Lockstep

/-!
# Failures of bodies

A failure of a body ends everything around it: sections, included templates, and the body that they
stand in.  So two computations for bodies that do the same, unless the first one fails in a certain
way, make computations of which the same can be said.

- `Unless`: the same computation, unless it fails in a certain way;
- `Unless.bind`: the rule for computations one after the other;
- `Unless.loops`, `Unless.templates`: so it is for sections, their elements, and included templates;
- `Unless.step`: **one more marker**.
-/

namespace Stencil

variable {σ α β : Type} {X : Halt → Prop}

/-- Two computations that do the same, unless the first one ends with a failure of this kind. -/
def Unless (X : Halt → Prop) (c d : Run σ α) : Prop :=
  ∀ s, (∃ e s', c s = (.error e, s') ∧ X e) ∨ c s = d s

namespace Unless

theorem refl (c : Run σ α) : Unless X c c := fun _ => .inr rfl

/-- Whatever goes on behind a failure does not matter. -/
theorem bind {c d : Run σ α} {k l : α → Run σ β} (h : Unless X c d)
    (hk : ∀ a, Unless X (k a) (l a)) : Unless X (c >>= k) (d >>= l) := by
  intro s
  rw [Run.bind_apply, Run.bind_apply]
  rcases h s with ⟨e, s', hc, he⟩ | heq
  · rw [hc]
    exact .inl ⟨e, s', rfl, he⟩
  · rw [heq]
    cases d s with
    | mk x s' =>
      cases x with
      | ok a => exact hk a s'
      | error e => exact .inr rfl

/-- Both begin in the same way. -/
theorem behind (c : Run σ α) {k l : α → Run σ β} (hk : ∀ a, Unless X (k a) (l a)) :
    Unless X (c >>= k) (c >>= l) := bind (refl c) hk

theorem discard {c d : Run σ α} (h : Unless X c d) :
    Unless X (Functor.discard c : Run σ PUnit) (Functor.discard d : Run σ PUnit) := by
  intro s
  rw [Run.discard_apply, Run.discard_apply]
  rcases h s with ⟨e, s', hc, he⟩ | heq
  · rw [hc]
    exact .inl ⟨e, s', rfl, he⟩
  · rw [heq]
    exact .inr rfl

theorem inScope {c d : Run σ α} (h : Unless X c d) (scope : Scope) :
    Unless X (Run.inScope scope c) (Run.inScope scope d) :=
  behind _ fun _ => behind _ fun _ => bind h fun _ => refl _

theorem compositional : Compositional fun _ (c d : Run σ _) => Unless X c d where
  answer _ := refl _
  halt _ := refl _
  bind := bind

/-! ## Sections -/

/-- A sequence is closed behind a failure of its body, which is then the failure of both. -/
theorem loops [Sink σ] : Compositional.Loops fun _ (c d : Run σ _) => Unless X c d where
  toCompositional := compositional
  scanning h := h.inScope _
  inSection _ h := behind _ fun _ => bind h fun _ => refl _
  holds _ := refl _
  caching h := h.inScope _
  bound _ := refl _
  pull _ := refl _
  again h hk := behind _ fun _ => bind h fun _ => behind _ fun _ => hk
  closing {b c name separator muted e} h := by
    intro s
    rw [Body.sequence_apply, Body.sequence_apply]
    rcases h s with ⟨halt, s', hb, he⟩ | heq
    · rw [hb]
      exact .inl ⟨halt, _, rfl, he⟩
    · rw [heq]
      exact .inr rfl

/-! ## Included templates -/

theorem templates : Compositional.Templates fun _ (c d : Run σ _) => Unless X c d where
  toCompositional := compositional
  look h := behind _ fun s => h s s ⟨rfl, rfl, rfl, rfl⟩
  reaching _ := refl _
  supplied _ _ := refl _
  takeReader _ := refl _
  keepReader _ _ := refl _
  inTemplate _ _ h := behind _ fun _ => behind _ fun _ => bind h.discard fun _ => refl _

/-! ## Markers -/

/-- **One more marker.** -/
theorem step [Sink σ] {b c : Bool → Value → Run σ Exit} {f : Body.Opener σ} {job : Job}
    (h : ∀ muted v, Unless X (b muted v) (c muted v)) (muted : Bool) (v : Value) :
    Unless X (Body.step b f job muted v) (Body.step c f job muted v) := by
  have closed := compositional.closed h
  refine templates.step (fun _ => refl _) (fun m => templates.obey (refl _) ?_ ?_ ?_) (h muted v)
  · exact loops.repeating closed m muted v (loops.sequence closed (fun _ _ => refl _) m.name muted)
  · exact fun inverted => loops.conditional closed m inverted muted v
  · exact templates.included (h muted v) (fun _ _ => refl _) rfl m.name

end Unless

end Stencil
