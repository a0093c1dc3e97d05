import Stencil.Proofs.Data.Fields
import Stencil.Proofs.Render.Lockstep

/-!
# Included templates in step

A reader that is kept for an included template has no mark, so that going back brings it to its
start: from there it reads what a reader opened afresh reads.  Twins may therefore keep different
readers, or none.

- `takeReader_apply`, `keepReader_apply`: taking and keeping readers changes the scopes only, and
  cannot be seen (`takeReader_spec`, `keepReader_spec`);
- `Opens`: what a way to get readers promises; both opening each time and going back keep it
  (`opens_afresh`, `opens_reopen`);
- `Lockstep.included`: an included template is written in step;
- `Lockstep.step`: **one more marker**, for one more unit of `need`.
-/

namespace Stencil

variable {σ : Type} {job : Job} {s t : State σ}

/-! ## Kept readers -/

namespace Body

/-- A reader that may be kept under a name: it has no mark, and belongs to the template that the
name includes. -/
def Rewindable (job : Job) (l : Loader) (name : String) (r : Reader) : Prop :=
  r.marks = [] ∧ r.Of l (resolveRelative job.template name)

/-- A reader that is kept in one of these scopes, and the name that it is kept under. -/
def KeptIn (scopes : List Scope) (e : String × Reader) : Prop :=
  ∃ readers, .caching readers ∈ scopes ∧ e ∈ readers

/-- Taking a reader out of its scope leaves all but the scopes, and what is kept was kept before. -/
theorem takeReader_apply (name : String) (s : State σ) :
    ∃ kept scopes, takeReader name s = (.ok kept, { s with scopes := scopes }) ∧
      scopes.map Scope.isDiscarding = s.scopes.map Scope.isDiscarding ∧
      (∀ e, KeptIn scopes e → KeptIn s.scopes e) ∧
      ∀ r, kept = some r → KeptIn s.scopes (name, r) := by
  obtain ⟨sink, reader, streams, shelf, bundle, scopes, sections, active⟩ := s
  cases scopes with
  | nil => exact ⟨none, _, rfl, rfl, fun _ h => h, fun r heq => nomatch heq⟩
  | cons scope scopes =>
    cases scope with
    | discarding => exact ⟨none, _, rfl, rfl, fun _ h => h, fun r heq => nomatch heq⟩
    | caching readers =>
      -- the reader leaves its scope, so that no template inside comes to it
      refine ⟨_, _, rfl, rfl, fun e ⟨readers', hr, he⟩ => ?_, fun r heq => ?_⟩
      · rcases List.mem_cons.mp hr with heq | hr
        · rw [Scope.caching.inj heq] at he
          exact ⟨readers, List.mem_cons_self .., (List.mem_filter.mp he).1⟩
        · exact ⟨readers', List.mem_cons_of_mem _ hr, he⟩
      · exact ⟨readers, List.mem_cons_self .., Fields.mem_of_get? heq⟩

/-- Keeping a reader leaves all but the scopes, and only this one is kept besides. -/
theorem keepReader_apply (name : String) (r : Reader) (s : State σ) :
    ∃ scopes, keepReader name r s = (.ok (), { s with scopes := scopes }) ∧
      scopes.map Scope.isDiscarding = s.scopes.map Scope.isDiscarding ∧
      ∀ e, KeptIn scopes e → e = (name, r) ∨ KeptIn s.scopes e := by
  obtain ⟨sink, reader, streams, shelf, bundle, scopes, sections, active⟩ := s
  cases scopes with
  | nil => exact ⟨_, rfl, rfl, fun _ h => .inr h⟩
  | cons scope scopes =>
    cases scope with
    | discarding => exact ⟨_, rfl, rfl, fun _ h => .inr h⟩
    | caching readers =>
      refine ⟨_, rfl, rfl, fun e ⟨readers', hr, he⟩ => ?_⟩
      rcases List.mem_cons.mp hr with heq | hr
      · rw [Scope.caching.inj heq] at he
        rcases Fields.mem_put he with rfl | he
        · exact .inl rfl
        · exact .inr ⟨readers, List.mem_cons_self .., he⟩
      · exact .inr ⟨readers', List.mem_cons_of_mem _ hr, he⟩

/-- Taking a reader out of its scope cannot be seen. -/
theorem takeReader_spec (h : Sound job s) (name : String) :
    ∃ kept s', takeReader name s = (.ok kept, s') ∧ s'.view = s.view ∧ Sound job s' ∧
      ∀ r, kept = some r → Rewindable job s'.shelf.loader name r := by
  obtain ⟨kept, scopes, htake, hsame, hbefore, hkept⟩ := takeReader_apply name s
  refine ⟨kept, _, htake, ?_, ⟨h.reader, h.different, h.named, h.opens, fun readers hr e he => ?_⟩,
    fun r heq => ?_⟩
  · simp only [State.view, hsame]
  · obtain ⟨readers', hr', he'⟩ := hbefore e ⟨readers, hr, he⟩
    exact h.kept readers' hr' e he'
  · obtain ⟨readers, hr, he⟩ := hkept r heq
    exact h.kept readers hr _ he

/-- Keeping a reader in a scope cannot be seen. -/
theorem keepReader_spec (h : Sound job s) {name : String} {r : Reader}
    (hr : Rewindable job s.shelf.loader name r) :
    ∃ s', keepReader name r s = (.ok (), s') ∧ s'.view = s.view ∧ Sound job s' := by
  obtain ⟨scopes, hkeep, hsame, hbefore⟩ := keepReader_apply name r s
  refine ⟨_, hkeep, ?_, ⟨h.reader, h.different, h.named, h.opens, fun readers hm e he => ?_⟩⟩
  · simp only [State.view, hsame]
  · rcases hbefore e ⟨readers, hm, he⟩ with rfl | ⟨readers', hm', he'⟩
    · exact hr
    · exact h.kept readers' hm' e he'

theorem openReader_apply (absent : String → RenderError) (name : String) (s : State σ) :
    Run.openReader absent name s = match s.shelf.loader.openNamed name with
      | .ok source => (.ok (Reader.ofSource source),
        { s with shelf := { s.shelf with opened := name :: s.shelf.opened } })
      | .error e => (.error (.failed (if e.kind = .notFound then absent name else .io e)), s) := by
  unfold Run.openReader Shelf.openNamed
  cases s.shelf.loader.openNamed name <;> rfl

/-- What a way to get readers promises: where there is no resource it fails as opening does, and
otherwise the reader is at the start of the resource, with no mark. -/
def Opens (job : Job) (opener : Opener σ) : Prop :=
  ∀ {s : State σ} {name : String} {kept : Option Reader},
    (∀ r, kept = some r → Rewindable job s.shelf.loader name r) →
      (∃ e, s.shelf.loader.openNamed (resolveRelative job.template name) = .error e ∧
        opener (resolveRelative job.template name) kept s =
          (.error (.failed (if e.kind = .notFound then
            .includeNotFound (resolveRelative job.template name) else .io e)), s)) ∨
      ∃ source r shelf, s.shelf.loader.openNamed (resolveRelative job.template name) = .ok source ∧
        opener (resolveRelative job.template name) kept s =
          (.ok r, { s with shelf := shelf }) ∧ s.shelf.Alike shelf ∧
        r.Valid ∧ r.script = (Reader.ofSource source).script ∧ r.position = 0 ∧ r.marks = []

/-- Opens a resource each time, and never goes back. -/
def openAfresh : Opener σ := fun resolved _ => Run.openReader .includeNotFound resolved

theorem opens_afresh : Opens job (openAfresh (σ := σ)) := by
  intro s name kept _
  have happly := openReader_apply .includeNotFound (resolveRelative job.template name) s
  cases ho : s.shelf.loader.openNamed (resolveRelative job.template name) with
  | error e =>
    rw [ho] at happly
    exact .inl ⟨e, rfl, happly⟩
  | ok source =>
    rw [ho] at happly
    exact .inr ⟨source, Reader.ofSource source, _, rfl, happly, ⟨rfl, rfl⟩,
      Reader.valid_ofSource source, rfl, rfl, rfl⟩

/-- A reader that is kept is at its start after going back, as one that has just been opened. -/
theorem opens_reopen : Opens job (reopen (σ := σ)) := by
  intro s name kept hk
  cases kept with
  | none => exact opens_afresh hk
  | some r =>
    obtain ⟨hm, hv, source, hs, hr⟩ := hk r rfl
    refine .inr ⟨source, r.reset, s.shelf, hs, rfl, ⟨rfl, rfl⟩, hv.reset, ?_, ?_, ?_⟩
    · rw [Reader.script_reset, hr]
    · rw [Reader.reset, hm]
    · rw [Reader.reset, hm]

end Body

/-! ## Entering and leaving a template -/

/-- The state in which an included template is written. -/
def State.enter (s : State σ) (resolved : String) (r : Reader) : State σ :=
  { s with reader := r, sections := [], active := resolved :: s.active }

/-- The state in which the template around it goes on, when the included one has left `inner`. -/
def State.leave (s inner : State σ) : State σ :=
  { inner with reader := s.reader, sections := s.sections, active := s.active }

/-- A body is written with another reader, and everything around it comes back. -/
theorem inTemplate_apply (b : Bool → Value → Run σ Exit) (resolved : String) (r : Reader)
    (muted : Bool) (v : Value) (s : State σ) :
    Body.inTemplate b resolved r muted v s = match b muted v (s.enter resolved r) with
      | (.ok _, inner) => (.ok inner.reader, s.leave inner)
      | (.error e, inner) => (.error e, inner) := by
  have hbody := Run.discard_apply (b muted v) (s.enter resolved r)
  show ((discard (b muted v) : Run σ PUnit) >>= _) (s.enter resolved r) = _
  rw [Run.bind_apply, hbody]
  cases b muted v (s.enter resolved r) with
  | mk x inner => cases x <;> rfl

/-- What happens once a kept reader has been taken: a template that is being read is not entered. -/
theorem entering_told [Observer σ] {b : Bool → Value → Run σ Exit} {f : Body.Opener σ}
    {name : String} {kept : Option Reader} {s₁ : State σ}
    (htake : Body.takeReader name s = (.ok kept, s₁)) (muted : Bool) (v : Value) :
    Body.entering b f job name muted v s =
      if resolveRelative job.template name ∈ s₁.active then
        Run.fail (.recursiveInclude name) s₁
      else
        (f (resolveRelative job.template name) kept >>= fun r =>
          Run.notice (.supplied name kept.isSome) >>= fun _ =>
            Body.inTemplate b (resolveRelative job.template name) r muted v >>=
              Body.keepReader name) s₁ := by
  unfold Body.entering
  rw [Run.bind_apply, htake]
  dsimp only
  rw [Run.bind_apply]
  show (if s₁.active.contains (resolveRelative job.template name) then
      Run.fail (.recursiveInclude name) else _ : Run σ Unit) s₁ = _
  by_cases hm : resolveRelative job.template name ∈ s₁.active
  · rw [if_pos hm, if_pos (List.contains_iff_mem.mpr hm)]
  · rw [if_neg hm, if_neg (mt List.contains_iff_mem.mp hm)]

theorem entering_apply {b : Bool → Value → Run σ Exit} {f : Body.Opener σ} {name : String}
    {kept : Option Reader} {s₁ : State σ} (htake : Body.takeReader name s = (.ok kept, s₁))
    (muted : Bool) (v : Value) :
    Body.entering b f job name muted v s =
      if resolveRelative job.template name ∈ s₁.active then
        Run.fail (.recursiveInclude name) s₁
      else
        (f (resolveRelative job.template name) kept >>= fun r =>
          Body.inTemplate b (resolveRelative job.template name) r muted v >>=
            Body.keepReader name) s₁ := by
  rw [entering_told htake]
  simp only [Run.unheard_bind]

/-- Included templates are left out where bodies are only scanned. -/
theorem included_told [Observer σ] (b : Bool → Value → Run σ Exit) (f : Body.Opener σ) (job : Job)
    (name : String) (muted : Bool) (v : Value) (s : State σ) :
    Body.included b f job name muted v s =
      if s.discards then (.ok (), s.told (.reaching name))
      else Body.entering b f job name muted v (s.told (.reaching name)) := by
  obtain ⟨_, _, _, _, _, scopes, _, _⟩ := s
  cases scopes with
  | nil => rfl
  | cons scope _ => cases scope <;> rfl

theorem included_apply (b : Bool → Value → Run σ Exit) (f : Body.Opener σ) (job : Job)
    (name : String) (muted : Bool) (v : Value) (s : State σ) :
    Body.included b f job name muted v s =
      if s.discards then (.ok (), s) else Body.entering b f job name muted v s :=
  included_told b f job name muted v s

/-- A section ends under the name of the innermost one. -/
theorem sectionEnd_apply (name : String) (s : State σ) :
    Body.sectionEnd name s = match s.sections with
      | [] => Run.fail (.unmatchedSectionEnd name) s
      | opened :: _ =>
        if opened = name then (.ok .sectionEnd, s)
        else Run.fail (.invalidClosingSection opened name) s := by
  have hget : (get : Run σ (State σ)) s = (.ok s, s) := rfl
  rw [Body.sectionEnd, Run.bind_apply, hget]
  obtain ⟨_, _, _, _, _, _, sections, _⟩ := s
  cases sections with
  | nil => rfl
  | cons opened _ =>
    dsimp only
    by_cases ho : opened = name
    · rw [if_pos ho, if_pos ho]
      rfl
    · rw [if_neg ho, if_neg ho]

/-- The end marker of the innermost section ends its body. -/
theorem obey_sectionEnd [Sink σ] {b : Bool → Value → Run σ Exit} {f : Body.Opener σ} {m : Marker}
    (hk : m.kind = .sectionEnd) (h : s.sections.head? = some m.name) (muted : Bool) (v : Value) :
    Body.obey b f job muted v m s = (.ok (some .sectionEnd), s) := by
  obtain ⟨outer, hsec⟩ := List.head?_eq_some_iff.mp h
  unfold Body.obey
  rw [hk]
  dsimp only
  rw [Run.map_apply, sectionEnd_apply, hsec]
  dsimp only
  rw [if_pos rfl]

/-- What follows a marker: the body ends with it, or goes on. -/
def goOn (b : Bool → Value → Run σ Exit) (muted : Bool) (v : Value) : Option Exit → Run σ Exit
  | some exit => pure exit
  | none => b muted v

/-- A step copies text, carries out the marker behind it, and goes on. -/
theorem step_apply [Sink σ] (b : Bool → Value → Run σ Exit) (f : Body.Opener σ) (job : Job)
    (muted : Bool) (v : Value) (s : State σ) :
    Body.step b f job muted v s =
      match Run.copyText muted (s.reader.charsLeft + 1) s with
      | (.ok none, s) => (.ok .endOfText, s)
      | (.ok (some m), s) => (Body.obey b f job muted v m >>= goOn b muted v) s
      | (.error e, s) => (.error e, s) := by
  unfold Body.step
  rw [Run.bind_apply]
  show (Run.copyText muted (s.reader.charsLeft + 1) >>= _) s = _
  rw [Run.bind_apply]
  cases Run.copyText muted (s.reader.charsLeft + 1) s with
  | mk x s₁ =>
    cases x with
    | error e => rfl
    | ok m =>
      cases m with
      | none => rfl
      | some m =>
        refine congrFun (congrArg (Body.obey b f job muted v m >>= ·) (funext fun exit => ?_)) s₁
        cases exit <;> rfl

theorem Sound.enter (h : Sound job s) {resolved : String} {r : Reader}
    (hnew : resolved ∉ s.active) (htarget : resolved ∈ s.shelf.loader.targets job.template)
    (hr : r.Of s.shelf.loader resolved) : Sound job (s.enter resolved r) := by
  obtain ⟨source, hopen, -⟩ := hr.source
  refine ⟨⟨resolved, s.active, rfl, hr⟩, List.nodup_cons.mpr ⟨hnew, h.different⟩, ?_, ?_, h.kept⟩
  · intro name hm
    rcases List.mem_cons.mp hm with rfl | hm
    · exact List.mem_cons_of_mem _ htarget
    · exact h.named name hm
  · intro name hm
    rcases List.mem_cons.mp hm with rfl | hm
    · exact ⟨source, hopen⟩
    · exact h.opens name hm

theorem Sound.leave {inner : State σ} (h : Sound job s) (hi : Sound job inner)
    (hl : inner.shelf.loader = s.shelf.loader) : Sound job (s.leave inner) :=
  ⟨hl ▸ h.reader, h.different, hl ▸ h.named, hl ▸ h.opens, hi.kept⟩

/-- There are no more templates being read than targets, and the outermost one. -/
theorem Sound.length_active (h : Sound job s) :
    s.active.length ≤ (s.shelf.loader.targets job.template).length + 1 :=
  h.different.length_le_of_subset h.named

/-- An included template needs less than the marker that includes it. -/
theorem need_enter {resolved : String} {r : Reader}
    (he : Sound job (s.enter resolved r)) : need job (s.enter resolved r) < need job s := by
  have hlen := he.length_active
  obtain ⟨name, outer, hname, hv, source, hopen, hscript⟩ := he.reader
  have hreach : r.reach ≤ s.shelf.loader.size := by
    change r.Valid at hv
    change r.script = _ at hscript
    refine Nat.le_trans ?_ (Nat.le_trans (Reader.length_chars_script source) (Loader.size_le hopen))
    rw [Reader.reach_eq hv, hscript]
    exact Nat.sub_le _ _
  simp only [need, State.enter, List.length_cons] at hlen ⊢
  generalize (s.shelf.loader.targets job.template).length = targets at hlen ⊢
  -- one template fewer can still be included, and its share covers what this one can reach
  obtain ⟨k, hk⟩ : ∃ k, targets + 1 - s.active.length = k + 1 :=
    ⟨targets - s.active.length, by omega⟩
  rw [hk, show targets + 1 - (s.active.length + 1) = k by omega, Nat.succ_mul]
  omega

namespace Lockstep

open Body

variable {n : Nat} {b c : Bool → Value → Run σ Exit} {f g : Opener σ}

/-- What a template around an included one keeps: all of `Frame`, and the same look. -/
theorem leave_after {inner inner' : State σ} {resolved : String} {r : Reader}
    (h : Twin job s t) (hi : After job (s.enter resolved r) inner inner') :
    After job s (s.leave inner) (t.leave inner') := by
  obtain ⟨htwin, hf⟩ := hi
  have hl : inner.shelf.loader = s.shelf.loader := hf.loader
  have hl' : inner'.shelf.loader = t.shelf.loader := by
    rw [← htwin.shelf.loader, hl, h.shelf.loader]
  refine ⟨⟨h.left.leave htwin.left hl, h.right.leave htwin.right hl', ?_⟩,
    .refl _, hf.spent, hl, hf.discarding, rfl, rfl⟩
  show { inner.view with
      script := s.view.script, position := s.view.position, marks := s.view.marks
      sections := s.view.sections, active := s.view.active } =
    { inner'.view with
      script := t.view.script, position := t.view.position, marks := t.view.marks
      sections := t.view.sections, active := t.view.active }
  rw [htwin.view, h.view]

/-- The reader of an included template can be kept when the template has been read. -/
theorem rewindable_of_after {inner inner' : State σ} {name : String} {r : Reader}
    (hm : r.marks = [])
    (hi : After job (s.enter (resolveRelative job.template name) r) inner inner') :
    Rewindable job inner.shelf.loader name inner.reader := by
  obtain ⟨first, outer, hactive, hof⟩ := hi.twin.left.reader
  rw [hi.frame.active] at hactive
  obtain rfl : resolveRelative job.template name = first := (List.cons.inj hactive).1
  exact ⟨hi.frame.reader.marks.trans hm, hof⟩

/-- Readers for the same template are at its start, so what they give is the same. -/
theorem entered (L : Lockstep job n b c) (h : Twin job s t) (hn : need job s ≤ n) {name : String}
    (hnew : resolveRelative job.template name ∉ s.active)
    (htarget : resolveRelative job.template name ∈ s.shelf.loader.targets job.template)
    {r r' : Reader} (same : r.Same r') (hm : r.marks = [])
    (hr : r.Of s.shelf.loader (resolveRelative job.template name)) (muted : Bool) (v : Value) :
    Agree (fun _ => After job s)
      ((inTemplate b (resolveRelative job.template name) r muted v >>= keepReader name) s)
      ((inTemplate c (resolveRelative job.template name) r' muted v >>= keepReader name) t) := by
  -- the second reader is one of the same resource
  have hr' : r'.Of t.shelf.loader (resolveRelative job.template name) := by
    obtain ⟨-, source, hopen, hscript⟩ := hr
    refine ⟨same.right, source, ?_, ?_⟩
    · rw [← h.shelf.loader, hopen]
    · rw [← same.script, hscript]
  have hs := h.left.enter hnew htarget hr
  have ht : Sound job (t.enter (resolveRelative job.template name) r') := by
    refine h.right.enter ?_ ?_ hr'
    · rw [← h.active]
      exact hnew
    · rw [← h.shelf.loader]
      exact htarget
  -- the states inside the template look the same
  have hin : Twin job (s.enter (resolveRelative job.template name) r)
      (t.enter (resolveRelative job.template name) r') := by
    refine ⟨hs, ht, ?_⟩
    show { s.view with
        script := r.script, position := r.position, marks := r.marks, sections := []
        active := resolveRelative job.template name :: s.view.active } =
      { t.view with
        script := r'.script, position := r'.position, marks := r'.marks, sections := []
        active := resolveRelative job.template name :: t.view.active }
    rw [h.view, same.script, same.position, same.marks]
  have body := L hin (Nat.lt_of_lt_of_le (need_enter hs) hn) muted v
  rw [Run.bind_apply, Run.bind_apply, inTemplate_apply, inTemplate_apply]
  cases hb : b muted v (s.enter (resolveRelative job.template name) r) with
  | mk x inner =>
    cases hc : c muted v (t.enter (resolveRelative job.template name) r') with
    | mk y inner' =>
      rw [hb, hc] at body
      cases body with
      | error hfail => exact .error hfail
      | ok ha =>
        -- both go back around the template, and keep their readers
        have hleave := leave_after h ha
        have hl : inner.shelf.loader = inner'.shelf.loader := ha.twin.shelf.loader
        have hkeep := rewindable_of_after hm ha
        have hkeep' : Rewindable job inner'.shelf.loader name inner'.reader := by
          obtain ⟨hm, -, source, hopen, hscript⟩ := hkeep
          have hsame := ha.twin.reader
          refine ⟨hsame.marks ▸ hm, hsame.right, source, hl ▸ hopen, hsame.script ▸ hscript⟩
        obtain ⟨s₁, hput, hview, hsound⟩ := keepReader_spec hleave.twin.left hkeep
        obtain ⟨t₁, hput', hview', hsound'⟩ := keepReader_spec hleave.twin.right hkeep'
        dsimp only
        rw [hput, hput']
        refine .ok ⟨⟨hsound, hsound', ?_⟩, hleave.frame.trans (.of_view hview)⟩
        rw [hview, hview', hleave.twin.view]

/-- An included template is entered in step, whatever readers have been kept for it. -/
theorem entering (L : Lockstep job n b c) (hf : Opens job f) (hg : Opens job g) (h : Twin job s t)
    (hn : need job s ≤ n) {name : String}
    (htarget : resolveRelative job.template name ∈ s.shelf.loader.targets job.template)
    (muted : Bool) (v : Value) :
    Agree (fun _ => After job s) (Body.entering b f job name muted v s)
      (Body.entering c g job name muted v t) := by
  obtain ⟨kept, s₁, htake, hview, hsound, hk⟩ := takeReader_spec h.left name
  obtain ⟨kept', t₁, htake', hview', hsound', hk'⟩ := takeReader_spec h.right name
  -- what has been kept, and by which of them, cannot be seen
  have hf₁ : Frame s s₁ := .of_view hview
  have h₁ : Twin job s₁ t₁ := ⟨hsound, hsound', by rw [hview, hview', h.view]⟩
  have ha₁ : After job s s₁ t₁ := ⟨h₁, hf₁⟩
  have hn₁ : need job s₁ ≤ n := Nat.le_trans (ha₁.need_le h.left) hn
  rw [← hf₁.loader] at htarget
  rw [entering_apply htake, entering_apply htake', ← h₁.active]
  by_cases hnew : resolveRelative job.template name ∈ s₁.active
  · rw [if_pos hnew, if_pos hnew]
    exact .fail h₁ _
  · rw [if_neg hnew, if_neg hnew]
    have hloader : s₁.shelf.loader = t₁.shelf.loader := h₁.shelf.loader
    have spec := hf hk
    have spec' := hg hk'
    rw [← hloader] at spec'
    rw [Run.bind_apply, Run.bind_apply]
    rcases spec with ⟨e, hopen, hfor⟩ | ⟨source, r, shelf, hopen, hfor, hs, hv, hr, hp, hm⟩
    · -- there is no such template, or it cannot be opened
      rcases spec' with ⟨e', hopen', hfor'⟩ | ⟨_, _, _, hopen', _⟩
      · obtain rfl : e = e' := Except.error.inj (hopen.symm.trans hopen')
        rw [hfor, hfor']
        exact .error ⟨(fun heq => nomatch heq), h₁.visible⟩
      · exact nomatch hopen.symm.trans hopen'
    · -- the readers come from the same resource, each from its own shelf
      rcases spec' with ⟨_, hopen', _⟩ |
        ⟨source', r', shelf', hopen', hfor', hs', hv', hr', hp', hm'⟩
      · exact nomatch hopen.symm.trans hopen'
      · obtain rfl : source = source' := Except.ok.inj (hopen.symm.trans hopen')
        rw [hfor, hfor']
        have halike : shelf.Alike shelf' := by
          constructor
          · rw [← hs.loader, ← hs'.loader, hloader]
          · rw [← hs.bundles, ← hs'.bundles, h₁.shelf.bundles]
        have ha₂ := h₁.setShelf halike hs.loader.symm hs'.loader.symm
        have same : r.Same r' :=
          ⟨hv, hv', hr.trans hr'.symm, hp.trans hp'.symm, hm.trans hm'.symm⟩
        have hshelf : shelf.loader = s₁.shelf.loader := hs.loader.symm
        have hentered := L.entered ha₂.twin (Nat.le_trans (ha₂.need_le hsound) hn₁) hnew
          (show _ ∈ shelf.loader.targets job.template from hshelf ▸ htarget) same hm
          ⟨hv, source, hshelf ▸ hopen, hr⟩ muted v
        exact hentered.mono fun _ _ _ ha => ha₁.trans (ha₂.trans ha)

/-- An included template is written in step, or left out by both. -/
theorem included (L : Lockstep job n b c) (hf : Opens job f) (hg : Opens job g) (h : Twin job s t)
    (hn : need job s ≤ n) {name : String}
    (htarget : resolveRelative job.template name ∈ s.shelf.loader.targets job.template)
    (muted : Bool) (v : Value) :
    Agree (fun _ => After job s) (Body.included b f job name muted v s)
      (Body.included c g job name muted v t) := by
  rw [included_apply, included_apply]
  by_cases hd : s.discards
  · rw [if_pos hd, if_pos (h.discards.mp hd)]
    exact .same h
  · rw [if_neg hd, if_neg fun ht => hd (h.discards.mpr ht)]
    exact L.entering hf hg h hn htarget muted v

/-! ## Markers -/

theorem sectionEnd (h : Twin job s t) (name : String) :
    Agree (fun _ => After job s) (Body.sectionEnd name s) (Body.sectionEnd name t) := by
  rw [sectionEnd_apply, sectionEnd_apply, ← h.sections]
  cases s.sections with
  | nil => exact .fail h _
  | cons opened _ =>
    dsimp only
    by_cases ho : opened = name
    · rw [if_pos ho, if_pos ho]
      exact .same h
    · rw [if_neg ho, if_neg ho]
      exact .fail h _

variable [Sink σ]

theorem obey (L : Lockstep job n b c) (hf : Opens job f) (hg : Opens job g) (h : Twin job s t)
    (hn : need job s < n) {m : Marker} (hm : Targeted job s.shelf.loader m) (muted : Bool)
    (v : Value) :
    Agree (fun _ => After job s) (Body.obey b f job muted v m s)
      (Body.obey c g job muted v m t) := by
  unfold Body.obey
  cases hk : m.kind with
  | comment => exact .same h
  | «variable» => exact .bind (agree_substitute h muted v m) fun _ _ _ ha => .ok ha
  | repeating => exact .bind (L.repeating h hn m muted v) fun _ _ _ ha => .ok ha
  | conditional => exact .bind (L.conditional h hn m false muted v) fun _ _ _ ha => .ok ha
  | inverted => exact .bind (L.conditional h hn m true muted v) fun _ _ _ ha => .ok ha
  | «include» =>
    exact .bind (L.included hf hg h (Nat.le_of_lt hn) (hm hk) muted v) fun _ _ _ ha => .ok ha
  | sectionEnd => exact .map (sectionEnd h m.name)

/-- **One more marker**: text is copied up to a marker, which takes at least a character, and
everything behind it needs less. -/
theorem step (L : Lockstep job n b c) (hf : Opens job f) (hg : Opens job g) :
    Lockstep job (n + 1) (Body.step b f job) (Body.step c g job) := by
  intro s t h hn muted v
  have hcopied := agree_copyText muted (s.reader.charsLeft + 1) h
    (Nat.lt_succ_of_le (Reader.length_chars_ahead h.left.valid))
    (Nat.lt_succ_of_le (by
      rw [Reader.reach, h.reader.ahead]
      exact Reader.length_chars_ahead h.right.valid) : _ < t.reader.charsLeft + 1)
  unfold Body.step
  rw [Run.bind_apply, Run.bind_apply]
  refine .bind hcopied fun m s₁ t₁ hcopy => ?_
  have ha := hcopy.after
  cases m with
  | none => exact .ok ha
  | some m =>
    have hn₁ : need job s₁ < n := Nat.lt_of_lt_of_le (hcopy.need_lt rfl) (Nat.le_of_lt_succ hn)
    have hm : Targeted job s₁.shelf.loader m := by
      rw [ha.frame.loader]
      exact hcopy.target m rfl
    refine .bind (L.obey hf hg ha.twin hn₁ hm muted v) fun exit s₂ t₂ ha₂ => ?_
    cases exit with
    | some exit => exact .ok (ha.trans ha₂)
    | none =>
      have hn₂ := Nat.lt_of_le_of_lt (ha₂.need_le ha.twin.left) hn₁
      exact (L ha₂.twin hn₂ muted v).mono fun _ _ _ ha₃ => ha.trans (ha₂.trans ha₃)

end Lockstep

end Stencil
