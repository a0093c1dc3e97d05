import Stencil.Proofs.Render.Aloof
import Stencil.Proofs.Render.Compositional
import Stencil.Proofs.Render.Standing

/-!
# Thrifty renders

Whatever a render does, no single-pass sequence can give more behind it than before: a sequence is
asked and closed, and never refilled.  So the bound that a section takes before its first element
covers all that follow, also when its body asks the same sequence, and any other bound that covers
them does as well.

- `Thrifty`: a computation after which no sequence can give more than before; `Thrifty.bind` is the
  rule for one after the other;
- `Thrifty.write`: **renders are thrifty**, since what they are made of is;
- `Body.each_fuel`: **the fuel of a loop over elements does not matter** when it covers them;
- `Body.iterated_congr`: states that give the same next element give all the same.
-/

namespace Stencil

open Body

variable {σ α β : Type}

/-- A computation after which no single-pass sequence can give more than before. -/
def Thrifty (c : Run σ α) : Prop := ∀ s : State σ, s.streams.Spent (c s).2.streams

namespace Thrifty

theorem of_keeps {c : Run σ α} (h : ∀ s, (c s).2.streams = s.streams) : Thrifty c := by
  intro s
  rw [h s]
  exact .refl _

/-- What does not ask a sequence is thrifty. -/
theorem of_aloof {c : Run σ α} (h : Aloof c c) : Thrifty c :=
  of_keeps fun s => (h s s.sink s.streams).2.2

theorem pure (a : α) : Thrifty (Pure.pure a : Run σ α) := of_aloof (.pure a)

theorem fail (e : RenderError) : Thrifty (Run.fail e : Run σ α) := of_aloof (.fail e)

theorem change {f : State σ → State σ} (h : ∀ s, (f s).streams = s.streams) :
    Thrifty (modify f : Run σ Unit) := of_keeps h

theorem request {send : Streams → α × Streams}
    (h : ∀ streams, Streams.Spent streams (send streams).2) :
    Thrifty (Run.request send : Run σ α) := fun s => h s.streams

theorem spent {c : Run σ α} (h : Thrifty c) {s s' : State σ} {x : Except Halt α}
    (hc : c s = (x, s')) : s.streams.Spent s'.streams := by
  have hs := h s
  rwa [hc] at hs

theorem bind {c : Run σ α} {k : α → Run σ β} (hc : Thrifty c) (hk : ∀ a, Thrifty (k a)) :
    Thrifty (c >>= k) := by
  intro s
  have first := hc s
  rw [Run.bind_apply]
  generalize c s = x at first
  obtain ⟨answer, s'⟩ := x
  cases answer with
  | error e => exact first
  | ok a => exact first.trans (hk a s')

theorem compositional : Compositional (OfFirst fun _ (c : Run σ _) => Thrifty c) where
  answer := pure
  halt _ := of_keeps fun _ => rfl
  bind := bind

/-- A computation may depend on the state that it starts in. -/
theorem look {k : State σ → Run σ α} (h : ∀ s, Thrifty (k s)) : Thrifty (get >>= k) :=
  fun s => h s s

theorem inScope {c : Run σ α} (h : Thrifty c) (scope : Scope) :
    Thrifty (Run.inScope scope c) := by
  rw [Run.inScope_silent]
  exact bind (change fun _ => rfl) fun _ => h.bind fun a => bind (change fun _ => rfl) fun _ => pure a

theorem inSection {c : Run σ α} (h : Thrifty c) (name : String) :
    Thrifty (Run.inSection name c) :=
  bind (change fun _ => rfl) fun _ => h.bind fun a => bind (change fun _ => rfl) fun _ => pure a

/-! ## Bodies -/

theorem requests : Compositional.Requests (OfFirst fun _ (c : Run σ _) => Thrifty c) where
  toCompositional := compositional
  stepsLeft _ := of_keeps fun _ => rfl
  nextRow _ := request (Streams.spent_next _)
  hasNext _ := request (Streams.spent_hasNext _)

variable [Sink σ]

theorem copies : Compositional.Copies (OfFirst fun _ (c : Run σ _) => Thrifty c) where
  toCompositional := compositional
  readChar := of_aloof .readChar
  readMarker := of_aloof .readMarker
  checkSink muted := by
    refine look fun s => ?_
    split
    · exact fail _
    · exact pure _
  emit muted text := by
    cases muted with
    | true => exact pure ()
    | false => exact change fun _ => rfl

theorem loops : Compositional.Loops (OfFirst fun _ (c : Run σ _) => Thrifty c) where
  toCompositional := compositional
  scanning h := h.inScope _
  inSection name h := h.inSection name
  holds := requests.holds fun _ => pure ()
  caching h := h.inScope _
  bound := requests.bound
  pull e := by
    rw [pull_silent]
    exact requests.next e
  again h hk := bind (of_aloof (.markIf _)) fun _ => bind h fun _ =>
    bind (of_aloof .rewind) fun _ => hk
  closing {b _ name separator muted e} h := by
    intro s
    have inner := h s
    rw [sequence_apply]
    generalize Body.iterated b name separator muted e s = x at inner
    obtain ⟨answer, s'⟩ := x
    cases answer <;> exact inner.trans (e.spent_closing s'.streams)

omit [Sink σ] in
theorem templates : Compositional.Templates (OfFirst fun _ (c : Run σ _) => Thrifty c) where
  toCompositional := compositional
  look h := look fun s => h s s ⟨rfl, rfl, rfl, rfl⟩
  reaching _ := pure ()
  supplied _ _ := pure ()
  takeReader name := of_aloof (.takeReader name)
  keepReader name r := of_aloof (.keepReader name r)
  inTemplate {b _ muted v} resolved r h := by
    intro s
    have inner := h (s.enter resolved r)
    rw [inTemplate_apply]
    generalize b muted v (s.enter resolved r) = x at inner
    obtain ⟨answer, s'⟩ := x
    cases answer <;> exact inner

/-- **Renders are thrifty**, by induction on the fuel. -/
theorem write (job : Job) (n : Nat) (muted : Bool) (v : Value) :
    Thrifty (Body.write job n muted v : Run σ Exit) := by
  refine templates.write loops.toSections rfl copies.copyText ?_ ?_ ?_ n muted v
  · exact fun muted v m => copies.substitute copies.emit muted (of_aloof (.resolve job v m.name))
  · exact fun B name separator muted e =>
      loops.sequence (loops.closed B) (copies.separate copies.emit separator) name muted e
  · exact fun _ kept => of_aloof (.reopen _ kept)

end Thrifty

/-! ## The fuel of loops over elements -/

/-- What goes on behind a computation matters only for the answer and the state that it comes to. -/
theorem Run.bind_congr_apply {c : Run σ α} {k l : α → Run σ β} {s : State σ}
    (h : ∀ a s', c s = (.ok a, s') → k a s' = l a s') : (c >>= k) s = (c >>= l) s := by
  rw [Run.bind_apply, Run.bind_apply]
  cases hc : c s with
  | mk x s' =>
    cases x with
    | ok a => exact h a s' hc
    | error e => rfl

namespace Body

variable {s t : State σ}

/-- The bound that a section takes is more than the elements that are left. -/
theorem bound_spec (e : Elements) (s : State σ) :
    ∃ fuel, e.bound s = (.ok fuel, s) ∧ e.left s.streams + 1 ≤ fuel := by
  cases e with
  | list items => exact ⟨items.length + 1, rfl, Nat.le_refl _⟩
  | stream id =>
    have hle := Streams.reserve_le_stepsLeft id s.streams
    exact ⟨s.streams.stepsLeft id + 2, rfl, Nat.le_trans (Nat.succ_le_succ hle) (Nat.le_succ _)⟩

theorem covers_pos {fuel : Nat} {element : Except DataError Value} {rest : Elements}
    {streams : Streams} (h : covers fuel element rest streams) : 0 < fuel := by
  cases element with
  | error e => exact h
  | ok v => exact Nat.lt_of_lt_of_le (Nat.succ_pos _) h

variable [Sink σ] {b : Bool → Value → Run σ Exit}

/-- **The fuel of a loop over elements does not matter** when it covers them.  The induction is on
one of the two; the body between two elements may ask the sequence, but not refill it. -/
theorem each_fuel (B : ∀ muted v, Thrifty (b muted v)) (name : String) (separator : Option String)
    (muted : Bool) (f : Nat) :
    ∀ {g : Nat} {first : Bool} {element : Except DataError Value} {rest : Elements} {s : State σ},
      covers f element rest s.streams → covers g element rest s.streams →
        each b name separator muted f first element rest s =
          each b name separator muted g first element rest s := by
  induction f with
  | zero => exact fun hf _ => absurd (covers_pos hf) (Nat.lt_irrefl 0)
  | succ f ih =>
    intro g first element rest s hf hg
    obtain ⟨g, rfl⟩ := Nat.exists_eq_succ_of_ne_zero (Nat.pos_iff_ne_zero.mp (covers_pos hg))
    cases element with
    | error e => rfl
    | ok v =>
      have hf : rest.left s.streams + 1 ≤ f := Nat.le_of_succ_le_succ hf
      have hg : rest.left s.streams + 1 ≤ g := Nat.le_of_succ_le_succ hg
      unfold each
      simp only [pull_silent]
      refine Run.bind_congr_apply fun v s₀ h₀ => ?_
      obtain rfl : s = s₀ := congrArg Prod.snd h₀
      refine Run.bind_congr_apply fun next s₁ hnext => ?_
      obtain ⟨following, rest⟩ := next
      refine Run.bind_congr_apply fun _ s₂ h₂ => ?_
      refine Run.bind_congr_apply fun _ s₃ h₃ => ?_
      refine Run.bind_congr_apply fun _ s₄ h₄ => ?_
      cases following with
      | none => rfl
      | some element =>
        refine Run.bind_congr_apply fun _ s₅ h₅ => ?_
        have separated : Thrifty (separate separator first muted : Run σ Unit) :=
          Thrifty.copies.separate Thrifty.copies.emit separator first muted
        have body : Thrifty (closed b name muted v.asDictionary) :=
          Thrifty.loops.closed (c := b) B name muted _
        have spent : s₁.streams.Spent s₅.streams :=
          ((Thrifty.of_aloof (.markIf _)).spent h₂).trans
            ((separated.spent h₃).trans
              ((body.spent h₄).trans ((Thrifty.of_aloof .rewind).spent h₅)))
        exact ih (covers_spent spent (next_covers hnext hf))
          (covers_spent spent (next_covers hnext hg))

/-- **States that give the same next element give all the same.** -/
theorem iterated_congr (B : ∀ muted v, Thrifty (b muted v)) {e : Elements}
    (h : (e.next s : Except Halt (Option (Except DataError Value) × Elements) × State σ) = e.next t)
    (name : String) (separator : Option String) (muted : Bool) :
    iterated b name separator muted e s = iterated b name separator muted e t := by
  obtain ⟨f, hf, hleft⟩ := bound_spec e s
  obtain ⟨g, hg, hleft'⟩ := bound_spec e t
  unfold iterated
  simp only [pull_silent]
  rw [Run.bind_apply, Run.bind_apply, hf, hg]
  dsimp only
  rw [Run.bind_apply, Run.bind_apply, h]
  cases hnext : (e.next t : Except Halt (Option (Except DataError Value) × Elements) × State σ) with
  | mk x u =>
    cases x with
    | error e => rfl
    | ok found =>
      obtain ⟨first, rest⟩ := found
      cases first with
      | none => rfl
      | some element =>
        have same : each b name separator muted f true element rest
              { u with scopes := .caching [] :: u.scopes } =
            each b name separator muted g true element rest
              { u with scopes := .caching [] :: u.scopes } :=
          each_fuel B name separator muted f (next_covers (h.trans hnext) hleft)
            (next_covers hnext hleft')
        dsimp only
        rw [inScope_apply, inScope_apply, same]

end Body

end Stencil
