import Stencil.Proofs.Render.Unless
import Stencil.Proofs.Render.Watched

/-!
# Every render ends

Templates may be malformed, and may include themselves and each other in any way, also from within
sections that are read again for each element.  Still the fuel of a render is always enough, because
no template is read inside itself.

- `Loader.resourceNames`: the names by which resources can be reached;
- `Nesting`: the templates being read are different resources, no more of them than there are names;
- `Body.revisits`: the next marker includes a template that is being read;
- `Body.writeFresh`: writes as a render does, and gives up at such a marker;
- `Template.write_terminates`: **a render ends by itself, with `Nesting` at every marker**, and with
  the failure for recursive includes if it comes to a template that is being read.
-/

namespace Stencil

variable {σ : Type}

/-! ## The templates being read -/

/-- The different names of resources.  A file of a directory has any number of names; those of the
template and of what markers include can be reached. -/
def Loader.resourceNames (base : String) : Loader → List String
  | .directory files =>
    ((base :: targets base (.directory files)).filter fun name =>
      (openNamed (.directory files) name).isOk).eraseDups
  | l => l.names.eraseDups

theorem Loader.mem_names {l : Loader} (hl : ∀ files, l ≠ .directory files) {name : String}
    {source : Source} (h : l.openNamed name = .ok source) : name ∈ l.names := by
  cases l with
  | memory texts =>
    rw [openNamed] at h
    cases hget : Fields.get? name texts with
    | none =>
      rw [hget] at h
      cases h
    | some text => exact List.mem_map.mpr ⟨_, Fields.mem_of_get? hget, rfl⟩
  | scripted resources =>
    rw [openNamed] at h
    cases hget : Fields.get? name resources with
    | none =>
      rw [hget] at h
      cases h
    | some resource => exact List.mem_map.mpr ⟨_, Fields.mem_of_get? hget, rfl⟩
  | directory files => exact absurd rfl (hl files)

/-- A name that can be opened is one of a resource, if a render can come to it. -/
theorem Loader.mem_resourceNames {l : Loader} {base name : String} {source : Source}
    (h : l.openNamed name = .ok source) (hn : name ∈ base :: l.targets base) :
    name ∈ l.resourceNames base := by
  cases l with
  | memory texts => exact List.mem_eraseDups.mpr (mem_names (by simp) h)
  | scripted resources => exact List.mem_eraseDups.mpr (mem_names (by simp) h)
  | directory files =>
    refine List.mem_eraseDups.mpr (List.mem_filter.mpr ⟨hn, ?_⟩)
    rw [h]
    rfl

/-- The templates being read are different resources, and no more than there are. -/
structure Nesting (job : Job) (s : State σ) : Prop where
  different : s.active.Nodup
  named : ∀ name ∈ s.active, name ∈ s.shelf.loader.resourceNames job.template
  bounded : s.active.length ≤ (s.shelf.loader.resourceNames job.template).length

instance (job : Job) : DecidablePred (Nesting (σ := σ) job) := fun s =>
  decidable_of_iff
    (s.active.Nodup ∧ (∀ name ∈ s.active, name ∈ s.shelf.loader.resourceNames job.template) ∧
      s.active.length ≤ (s.shelf.loader.resourceNames job.template).length)
    ⟨fun ⟨h₁, h₂, h₃⟩ => ⟨h₁, h₂, h₃⟩, fun ⟨h₁, h₂, h₃⟩ => ⟨h₁, h₂, h₃⟩⟩

theorem Sound.nesting {job : Job} {s : State σ} (h : Sound job s) : Nesting job s := by
  have hnamed : ∀ name ∈ s.active, name ∈ s.shelf.loader.resourceNames job.template := by
    intro name hm
    obtain ⟨source, hopen⟩ := h.opens name hm
    exact Loader.mem_resourceNames hopen (h.named name hm)
  exact ⟨h.different, hnamed, h.different.length_le_of_subset hnamed⟩

/-! ## Coming back to a template -/

namespace Body

variable {job : Job}

/-- A template that is being read is not entered again, whatever would write it. -/
theorem entering_recursive (b : Bool → Value → Run σ Exit) (opener : Opener σ) {name : String}
    (muted : Bool) (v : Value) {s : State σ} (h : resolveRelative job.template name ∈ s.active) :
    (entering b opener job name muted v s).1 = .error (.failed (.recursiveInclude name)) := by
  obtain ⟨kept, scopes, htake, -⟩ := takeReader_apply name s
  rw [entering_apply htake, if_pos h]
  rfl

/-- Outside of bodies that are only scanned, a marker that includes a template being read fails. -/
theorem included_recursive (b : Bool → Value → Run σ Exit) (opener : Opener σ) {name : String}
    (muted : Bool) (v : Value) {s : State σ}
    (hd : ¬ s.discards) (h : resolveRelative job.template name ∈ s.active) :
    (included b opener job name muted v s).1 = .error (.failed (.recursiveInclude name)) := by
  rw [included_apply, if_neg hd]
  exact entering_recursive b opener muted v h

variable [Sink σ]

/-- Whether the next marker includes a template that is being read. -/
def revisits (job : Job) (muted : Bool) (s : State σ) : Bool :=
  match Run.copyText muted (s.reader.charsLeft + 1) s with
  | (.ok (some m), s) =>
    m.kind = .include ∧ ¬ s.discards ∧ resolveRelative job.template m.name ∈ s.active
  | _ => false

/-- Writes as `write` does, and gives up at a marker that includes a template being read. -/
def writeFresh (job : Job) : Nat → (muted : Bool) → Value → Run σ Exit
  | 0, _, _ => throw .exhausted
  | fuel + 1, muted, v => do
    if revisits job muted (← get) then throw .exhausted
    else step (writeFresh job fuel) reopen job muted v

/-- The failure of a marker that includes a template being read. -/
def Recursive (e : Halt) : Prop := ∃ name, e = .failed (.recursiveInclude name)

/-- **A marker that includes a template being read ends the body there.** -/
theorem write_revisits {n : Nat} {muted : Bool} {v : Value} {s : State σ}
    (h : revisits job muted s) : ∃ e s', write job (n + 1) muted v s = (.error e, s') ∧
      Recursive e := by
  rw [write, step_apply]
  unfold revisits at h
  cases hcopy : Run.copyText muted (s.reader.charsLeft + 1) s with
  | mk x s₁ =>
    rw [hcopy] at h
    cases x with
    | error e => cases h
    | ok m =>
      cases m with
      | none => cases h
      | some m =>
        obtain ⟨hk, hd, ha⟩ := of_decide_eq_true h
        have hincluded := included_recursive (write job n) reopen muted v hd ha
        dsimp only
        unfold obey
        rw [hk]
        dsimp only
        rw [Run.bind_apply, Run.bind_apply]
        cases hx : included (write job n) reopen job m.name muted v s₁ with
        | mk x s₂ =>
          rw [hx] at hincluded
          obtain rfl : x = .error (.failed (.recursiveInclude m.name)) := hincluded
          exact ⟨_, s₂, rfl, m.name, rfl⟩

/-- A render that gives up at such markers is the same render, unless that fails there. -/
theorem unless_writeFresh (job : Job) (n : Nat) :
    ∀ (muted : Bool) (v : Value),
      Unless Recursive (write job n muted v : Run σ Exit) (writeFresh job n muted v) := by
  induction n with
  | zero =>
    intro muted v
    exact .refl _
  | succ n ih =>
    intro muted v s
    by_cases h : revisits job muted s
    · exact .inl (write_revisits h)
    · have happly : writeFresh job (n + 1) muted v s =
          step (writeFresh job n) reopen job muted v s := by
        have hget : (get : Run σ (State σ)) s = (.ok s, s) := rfl
        rw [writeFresh, Run.bind_apply, hget]
        dsimp only
        rw [if_neg h]
      rw [happly, write]
      exact Unless.step ih muted v s

end Body

/-! ## Whole renders -/

namespace Template

variable [Sink σ]

/-- Whole renders do the same as well, unless the first one fails. -/
theorem writeBy_unless {X : Halt → Prop} {w x : Writer σ} {t : Template} {o : RenderOptions}
    (h : ∀ fuel muted v, Unless X (w (t.job o) fuel muted v) (x (t.job o) fuel muted v)) (v : Value)
    (start : Rendered σ) :
    (∃ e, (t.writeBy w o v start).1 = .error e ∧ X e) ∨
      t.writeBy w o v start = t.writeBy x o v start := by
  have hdictionary : Unless X (writeDictionary w (t.job o) v.asDictionary)
      (writeDictionary x (t.job o) v.asDictionary) :=
    .behind _ fun r => .behind _ fun _ => .behind _ fun s =>
      .bind ((h _ false _).inScope _).discard fun _ => .refl _
  rw [writeBy_apply, writeBy_apply]
  by_cases hnull : v.isNull
  · rw [if_pos hnull, if_pos hnull]
    exact .inr rfl
  · rw [if_neg hnull, if_neg hnull]
    rcases hdictionary (t.initial start) with ⟨e, s, hw, he⟩ | heq
    · rw [hw]
      exact .inl ⟨e, rfl, he⟩
    · rw [heq]
      exact .inr rfl

/-- **A render ends by itself**: its fuel is enough, so that more of it changes nothing.  At every
marker the templates being read are different resources, no more than there are names.  It ends with
the failure for recursive includes, or comes to no marker that includes a template being read: a
render that gives up at such a marker is the same. -/
theorem write_terminates (t : Template) (o : RenderOptions) (v : Value) (start : Rendered σ) :
    (t.write o v start).1 ≠ .error .exhausted ∧
    (∀ more, SameRender (t.write o v start)
      (t.writeBy (fun job fuel => Body.write job (more + fuel)) o v start)) ∧
    SameRender (t.write o v start)
      (t.writeBy (Body.writeThrough (Body.expect (Nesting (t.job o))) Body.reopen) o v start) ∧
    ((∃ name, (t.write o v start).1 = .error (.failed (.recursiveInclude name))) ∨
      t.write o v start = t.writeBy Body.writeFresh o v start) := by
  have watched : Body.Unseen (t.job o) (Body.expect (Nesting (σ := σ) (t.job o))) :=
    Body.unseen_expect fun _ h => h.nesting
  have same := write_same t o watched Body.opens_reopen 0 v start
  simp only [Nat.zero_add] at same
  refine ⟨same.1, ?_, same.2, ?_⟩
  · -- more fuel
    intro more
    have fuelled := write_same t o Body.unseen_pure Body.opens_reopen more v start
    simp only [Body.write_eq_writeThrough]
    exact fuelled.2
  · -- templates that would be read again
    rcases writeBy_unless (Body.unless_writeFresh (t.job o)) v start with ⟨e, hw, name, rfl⟩ | heq
    · exact .inl ⟨name, hw⟩
    · exact .inr heq

/-- Two templates that include each other: the second is left at its marker. -/
example :
    let t : Template := ⟨"a", "text/plain", none, none⟩
    let o : RenderOptions := ⟨⟨.default, 0⟩, none, []⟩
    let start : Rendered String :=
      ⟨"", ⟨[], []⟩, .ofLoader (.memory [("a", "a{{>b}}"), ("b", "b{{>a}}")])⟩
    (t.write o (.record []) start).1 = .error (.failed (.recursiveInclude "a")) ∧
      (t.write o (.record []) start).2.sink = "ab" ∧
        (t.writeBy Body.writeFresh o (.record []) start).1 = .error .exhausted := by
  decide +kernel

end Template

end Stencil
