import Stencil.Proofs.Render.Watched

/-!
# Kept readers cannot be seen

A reader of an included template is taken out of its scope, gone back, read to its end or a section
end, and kept again under its name.  What it reads is what a reader opened afresh would read, since
no mark is left in it.

- `Unmarked`: no reader that is kept in a scope has a mark;
- `Body.reopenAtStart`: goes back, and gives up unless that leads to the start of the template;
- `Template.write_opensAfresh`: **a render that keeps readers writes what one writes that opens each
  included template at each of its markers**, and it goes back to the start only.
-/

namespace Stencil

variable {σ : Type} {job : Job}

/-- No reader that is kept has a mark. -/
def Unmarked (s : State σ) : Prop :=
  ∀ scope ∈ s.scopes, match scope with
    | .caching readers => ∀ e ∈ readers, e.2.marks = []
    | .discarding => True

instance : DecidablePred (Unmarked (σ := σ)) := fun s =>
  have (scope : Scope) : Decidable (match scope with
      | .caching readers => ∀ e ∈ readers, e.2.marks = []
      | .discarding => True) :=
    match scope with
    | .caching readers => inferInstanceAs (Decidable (∀ e ∈ readers, e.2.marks = []))
    | .discarding => inferInstanceAs (Decidable True)
  inferInstanceAs (Decidable (∀ scope ∈ s.scopes, _))

theorem Sound.unmarked {s : State σ} (h : Sound job s) : Unmarked s := by
  intro scope hm
  cases scope with
  | discarding => trivial
  | caching readers =>
    intro e he
    exact (h.kept readers hm e he).1

namespace Body

/-- Takes the reader that is kept, when it has no mark and going back leads to its start. -/
def reopenAtStart : Opener σ
  | _, some r => if r.marks = [] ∧ r.reset.position = 0 then pure r.reset else throw .exhausted
  | resolved, none => openAfresh resolved none

/-- A reader that is kept has no mark, and goes back to its start. -/
theorem opens_reopenAtStart : Opens job (reopenAtStart (σ := σ)) := by
  intro s name kept hk
  cases kept with
  | none => exact opens_afresh hk
  | some r =>
    have hm : r.marks = [] := (hk r rfl).1
    have start : r.marks = [] ∧ r.reset.position = 0 := ⟨hm, by rw [Reader.reset, hm]⟩
    have same : reopenAtStart (resolveRelative job.template name) (some r) =
        (reopen (resolveRelative job.template name) (some r) : Run σ Reader) := if_pos start
    rw [same]
    exact opens_reopen hk

end Body

namespace Template

variable [Sink σ]

/-- **Keeping readers cannot be seen.**  A render ends as one that opens each included template at
each of its markers.  At every marker no reader that is kept has a mark, and whenever one is used
again it goes back to its start: a render that gives up otherwise is the same too. -/
theorem write_opensAfresh (t : Template) (o : RenderOptions) (v : Value) (start : Rendered σ) :
    (t.write o v start).1 ≠ .error .exhausted ∧
    SameRender (t.write o v start)
      (t.writeBy (Body.writeThrough (pure ()) Body.openAfresh) o v start) ∧
    SameRender (t.write o v start)
      (t.writeBy (Body.writeThrough (Body.expect Unmarked) Body.reopenAtStart) o v start) := by
  have watched : Body.Unseen (t.job o) (Body.expect (Unmarked (σ := σ))) :=
    Body.unseen_expect fun _ h => h.unmarked
  have afresh := write_same t o Body.unseen_pure Body.opens_afresh 0 v start
  have checked := write_same t o watched Body.opens_reopenAtStart 0 v start
  simp only [Nat.zero_add] at afresh checked
  exact ⟨afresh.1, afresh.2, checked.2⟩

end Template

end Stencil
