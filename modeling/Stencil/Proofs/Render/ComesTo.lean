import Stencil.Proofs.Render.Watched

/-!
# What a render comes to

A render carries out one computation inside another: the body of a section inside its scope, an
included template inside the body that includes it.  A failure of the inner one is the failure of
all those around it; on the way out nothing is written, and sections over sequences close these.

- `ComesTo`: a computation is carried out as a part of another one, from a state that is reached;
- `ComesTo.failure`: **a failure of the part is the failure of the whole**;
- `ComesTo.opening`, `ComesTo.marker`, `ComesTo.onward`, `ComesTo.repeating`: how a render comes to
  a section.
-/

namespace Stencil

open Body

variable {σ : Type} [Sink σ] {α β γ : Type}

/-- Carrying out a computation from a state comes to carrying out `d` from the state `s'`. -/
inductive ComesTo {β : Type} (d : Run σ β) (s' : State σ) : {α : Type} → Run σ α → State σ → Prop
  | here : ComesTo d s' d s'
  /-- In the first of two computations. -/
  | first {α γ : Type} {c : Run σ α} {s : State σ} (k : α → Run σ γ) (h : ComesTo d s' c s) :
    ComesTo d s' (c >>= k) s
  /-- In the second one, when the first has given an answer. -/
  | behind {α γ : Type} {c : Run σ α} {k : α → Run σ γ} {s s₁ : State σ} {a : α}
    (hc : c s = (.ok a, s₁)) (h : ComesTo d s' (k a) s₁) : ComesTo d s' (c >>= k) s
  /-- In a computation whose answer is not used. -/
  | discarded {α : Type} {c : Run σ α} {s : State σ} (h : ComesTo d s' c s) :
    ComesTo d s' (discard c : Run σ PUnit) s
  /-- In what a section writes for the elements of a sequence. -/
  | elements {b : Bool → Value → Run σ Exit} {name : String} {separator : Option String}
    {muted : Bool} {e : Elements} {s : State σ}
    (h : ComesTo d s' (iterated b name separator muted e) s) :
    ComesTo d s' (sequence b name separator muted e) s

namespace ComesTo

variable {d : Run σ β} {s s' s'' : State σ} {c : Run σ α}

/-- **A failure of the part is the failure of the whole**: the sink stays as the part has left it,
and of the sequences some are closed. -/
theorem failure {halt : Halt} (h : ComesTo d s' c s) (hd : d s' = (.error halt, s'')) :
    ∃ t, c s = (.error halt, t) ∧ t.sink = s''.sink ∧
      ∃ ids, t.streams = s''.streams.closeAll ids := by
  induction h with
  | here => exact ⟨s'', hd, rfl, [], rfl⟩
  | first k _ ih =>
    obtain ⟨t, ht, hrest⟩ := ih
    refine ⟨t, ?_, hrest⟩
    rw [Run.bind_apply, ht]
  | behind hc _ ih =>
    obtain ⟨t, ht, hrest⟩ := ih
    refine ⟨t, ?_, hrest⟩
    rw [Run.bind_apply, hc]
    exact ht
  | discarded _ ih =>
    obtain ⟨t, ht, hrest⟩ := ih
    refine ⟨t, ?_, hrest⟩
    rw [Run.discard_apply, ht]
  | @elements _ _ _ _ e _ _ ih =>
    obtain ⟨t, ht, hsink, ids, hids⟩ := ih
    refine ⟨{ t with streams := (e.closing t.streams).2 }, ?_, hsink, ?_⟩
    · rw [sequence_apply, ht]
    · cases e with
      | list items => exact ⟨ids, hids⟩
      | stream id =>
        refine ⟨ids ++ [id], ?_⟩
        rw [Streams.closeAll, List.foldl_append]
        exact congrArg (fun S => (Streams.close id S).2) hids

/-! ## The way to a section -/

theorem inScope {scope : Scope} (h : ComesTo d s' c { s with scopes := scope :: s.scopes }) :
    ComesTo d s' (Run.inScope scope c) s := .behind rfl (.behind rfl (.first _ h))

/-- Behind the opening of a template is the writing of its body. -/
theorem opening {t : Template} {o : RenderOptions} {v : Value} {start : Rendered σ}
    {source : Source} (hopen : start.shelf.loader.openNamed t.name = .ok source)
    (h : ComesTo d s' (Body.write (t.job o) (fuelFor start.shelf.loader) false v)
      { t.started start source with scopes := [.caching []] }) :
    ComesTo d s' (Template.writeDictionary Body.write (t.job o) v) (t.initial start) := by
  have hreader := openReader_apply .templateNotFound t.name (t.initial start)
  rw [show (t.initial start).shelf.loader = start.shelf.loader from rfl, hopen] at hreader
  exact .behind hreader (.behind rfl (.behind rfl (.first _ (.discarded (.inScope h)))))

variable {job : Job} {n : Nat} {muted : Bool} {v : Value} {m : Marker}

/-- The next marker of a body is carried out. -/
theorem marker (htext : Run.copyText muted (s.reader.charsLeft + 1) s = (.ok (some m), s''))
    (h : ComesTo d s' (obey (Body.write job n) reopen job muted v m) s'') :
    ComesTo d s' (Body.write job (n + 1) muted v) s := .behind rfl (.behind htext (.first _ h))

/-- Behind a marker that does not end the body, the rest of the body is written. -/
theorem onward {s₁ s₂ : State σ}
    (htext : Run.copyText muted (s.reader.charsLeft + 1) s = (.ok (some m), s₁))
    (hobey : obey (Body.write job n) reopen job muted v m s₁ = (.ok none, s₂))
    (h : ComesTo d s' (Body.write job n muted v) s₂) :
    ComesTo d s' (Body.write job (n + 1) muted v) s :=
  .behind rfl (.behind htext (.behind hobey h))

/-- A repeating section is carried out when its marker is. -/
theorem repeating (hm : m.kind = .repeating) :
    ComesTo (Body.repeating (Body.write job n) m muted v) s
      (obey (Body.write job n) reopen job muted v m) s := by
  unfold obey
  rw [hm]
  exact .first _ .here

end ComesTo

end Stencil
