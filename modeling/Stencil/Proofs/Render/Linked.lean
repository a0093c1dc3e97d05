import Stencil.Proofs.Render.Aloof
import Stencil.Proofs.Render.Compositional
import Stencil.Proofs.Render.Standing

/-!
# Renders with linked sequences

Two renders may use different single-pass sequences for the same purpose.  They go together as long
as each answers alike, which is said by a link between all the sequences of the one and those of the
other.  The first of the two may give up.

- `Link`, `Linked`: what is known of the sequences, and what two computations have come to;
- `Paired`: computations that go together; `Paired.bind` is the rule for one after the other;
- `Paired.of_aloof`: a computation that asks no sequence goes together with itself;
- `Paired.inScope`, `Paired.inSection`: scopes and sections;
- `Paired.copies`: text up to a marker, from where both are linked alike.
-/

namespace Stencil

variable {σ α β : Type}

/-! ## Going together -/

/-- What is known of the sequences of two renders. -/
abbrev Link := Streams → Streams → Prop

/-- Two renders have come to the same but for their sequences, which are linked; or the first has
given up. -/
inductive Linked (Q : Link) (A : α → Prop) :
    Except Halt α × State σ → Except Halt α × State σ → Prop where
  | gaveUp {s : State σ} {y : Except Halt α × State σ} : Linked Q A (.error .exhausted, s) y
  | answer {a : α} {s : State σ} {streams : Streams} (h : Q s.streams streams) (ha : A a) :
    Linked Q A (.ok a, s) (.ok a, { s with streams := streams })
  | failure {e : Halt} {s : State σ} {streams : Streams} (h : Q s.streams streams) :
    Linked Q A (.error e, s) (.error e, { s with streams := streams })

/-- Two computations that go together, from states that are the same but for linked sequences. -/
def Paired (P Q : Link) (A : α → Prop) (c d : Run σ α) : Prop :=
  ∀ s streams, P s.streams streams → Linked Q A (c s) (d { s with streams := streams })

/-- Any answer. -/
abbrev Any : α → Prop := fun _ => True

theorem Linked.mono {Q R : Link} {A : α → Prop} {x y : Except Halt α × State σ}
    (h : Linked Q A x y) (hQ : ∀ S T, Q S T → R S T) : Linked R A x y := by
  cases h with
  | gaveUp => exact .gaveUp
  | answer h ha => exact .answer (hQ _ _ h) ha
  | failure h => exact .failure (hQ _ _ h)

namespace Paired

variable {P Q R : Link} {A : α → Prop} {B : β → Prop} {c d : Run σ α} {k l : α → Run σ β}

/-- One computation behind the other.  What is known behind the first is known behind both when the
first has failed. -/
theorem bind (h : Paired P Q A c d) (hQ : ∀ S T, Q S T → R S T)
    (hk : ∀ a, A a → Paired Q R B (k a) (l a)) : Paired P R B (c >>= k) (d >>= l) := by
  intro s streams hP
  have first := h s streams hP
  rw [Run.bind_apply, Run.bind_apply]
  generalize c s = x at first
  generalize d { s with streams := streams } = y at first
  cases first with
  | gaveUp => exact .gaveUp
  | answer h ha => exact hk _ ha _ _ h
  | failure h => exact .failure (hQ _ _ h)

/-- One computation behind the other, and the link stays what it is. -/
theorem andThen (h : Paired P P A c d) (hk : ∀ a, A a → Paired P P B (k a) (l a)) :
    Paired P P B (c >>= k) (d >>= l) := h.bind (fun _ _ hP => hP) hk

/-- One computation behind the other, where the second render goes on with the image of an answer. -/
theorem andThenMap {γ : Type} {l : γ → Run σ β} (f : α → γ) (h : Paired P P A c d)
    (hk : ∀ a, A a → Paired P P B (k a) (l (f a))) : Paired P P B (c >>= k) (f <$> d >>= l) := by
  intro s streams hP
  have first := h s streams hP
  rw [Run.bind_apply, Run.bind_apply, Run.map_apply]
  generalize c s = x at first
  generalize d { s with streams := streams } = y at first
  cases first with
  | gaveUp => exact .gaveUp
  | answer h ha => exact hk _ ha _ _ h
  | failure h => exact .failure h

theorem pre (h : Paired P Q A c d) (hP : ∀ S T, R S T → P S T) : Paired R Q A c d :=
  fun s streams hR => h s streams (hP _ _ hR)

theorem post (h : Paired P Q A c d) (hQ : ∀ S T, Q S T → R S T) : Paired P R A c d :=
  fun s streams hP => (h s streams hP).mono hQ

/-- A computation that asks no sequence. -/
theorem of_aloof (h : Aloof c c) : Paired P P Any c c := by
  intro s streams hP
  obtain ⟨hd, hsink, hstreams⟩ := h s s.sink streams
  rw [show ({ s with streams := streams } : State σ) = s.reseat s.sink streams from rfl, hd]
  generalize c s = x at hsink hstreams
  obtain ⟨answer, s'⟩ := x
  dsimp only at hsink hstreams
  rw [← hstreams] at hP
  rw [← hsink]
  cases answer with
  | ok a => exact .answer hP trivial
  | error e => exact .failure hP

theorem discard (h : Paired P Q A c d) :
    Paired P Q Any (Functor.discard c : Run σ PUnit) (Functor.discard d) := by
  intro s streams hP
  have first := h s streams hP
  rw [Run.discard_apply, Run.discard_apply]
  generalize c s = x at first
  generalize d { s with streams := streams } = y at first
  cases first with
  | gaveUp => exact .gaveUp
  | answer h _ => exact .answer h trivial
  | failure h => exact .failure h

/-- Looking at the state. -/
theorem look {k l : State σ → Run σ β}
    (h : ∀ s streams, P s.streams streams → Paired P Q B (k s) (l { s with streams := streams })) :
    Paired P Q B (get >>= k) (get >>= l) := fun s streams hP => h s streams hP s streams hP

/-- Something is pushed before a computation, and popped behind it. -/
theorem around {push pop : State σ → State σ}
    (hpush : Aloof (modify push : Run σ Unit) (modify push))
    (hpop : Aloof (modify pop : Run σ Unit) (modify pop)) (hPQ : ∀ S T, P S T → Q S T)
    (h : Paired P Q A c d) :
    Paired P Q A (do modify push; let a ← c; modify pop; pure a)
      (do modify push; let a ← d; modify pop; pure a) := by
  refine (of_aloof hpush).bind hPQ fun _ _ => h.bind (fun _ _ hQ => hQ) fun a ha => ?_
  refine (of_aloof hpop).andThen fun _ _ => ?_
  exact fun _ _ hQ => .answer hQ ha

theorem inScope (h : Paired P Q A c d) (hPQ : ∀ S T, P S T → Q S T) (scope : Scope) :
    Paired P Q A (Run.inScope scope c) (Run.inScope scope d) := by
  rw [Run.inScope_silent, Run.inScope_silent]
  exact around (fun _ _ _ => ⟨rfl, rfl, rfl⟩) (fun _ _ _ => ⟨rfl, rfl, rfl⟩) hPQ h

theorem inSection (h : Paired P Q A c d) (hPQ : ∀ S T, P S T → Q S T) (name : String) :
    Paired P Q A (Run.inSection name c) (Run.inSection name d) :=
  around (fun _ _ _ => ⟨rfl, rfl, rfl⟩) (fun _ _ _ => ⟨rfl, rfl, rfl⟩) hPQ h

/-! ### Copying -/

variable [Sink σ]

theorem emit (muted : Bool) (text : String) :
    Paired P P Any (Run.emit muted text : Run σ Unit) (Run.emit muted text) := by
  intro s streams hP
  cases muted with
  | true => exact .answer hP trivial
  | false => exact .answer (s := { s with sink := Sink.write s.sink text }) hP trivial

theorem checkSink (muted : Bool) :
    Paired P P Any (Run.checkSink muted : Run σ Unit) (Run.checkSink muted) := by
  intro s streams hP
  rw [checkSink_apply, checkSink_apply]
  show Linked P Any _ (if !muted && Sink.failed s.sink then _ else _)
  split
  · exact .failure hP
  · exact .answer hP trivial

theorem copies : Compositional.Copies fun _ (c d : Run σ _) => Paired P P Any c d where
  answer a := of_aloof (.pure a)
  halt _ := fun _ _ hP => .failure hP
  bind hc hk := hc.andThen fun a _ => hk a
  readChar := of_aloof .readChar
  readMarker := of_aloof .readMarker
  checkSink := checkSink
  emit := emit

end Paired

end Stencil
