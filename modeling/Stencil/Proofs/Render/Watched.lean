import Stencil.Proofs.Render.Included
import Stencil.Render.Template

/-!
# Variants of a render

A statement about every state that a render passes through is made by a second render, which looks
at each of these states and gives up when one is not as expected.  That the two renders go together
says that it never gives up.  In the same way a render may get its readers elsewhere, or be given
more fuel.

- `Body.writeThrough`: writes as `Body.write` does, with something done before each marker, and with
  another way to get readers;
- `Body.expect`: gives up when the state is not as expected;
- `Body.lockstep_writeThrough`: **variants go together**, whatever is done between the markers as
  long as nobody can see it, with the fuel that is needed or more;
- `Template.writeBy_agree`: whole renders with bodies that go together end alike, and not for want
  of fuel; so do the variants of a render (`Template.write_same`).
-/

namespace Stencil

variable {σ : Type}

namespace Body

/-- Writes a template as `write` does, with a computation carried out before each marker, and
readers for included templates from `opener`. -/
def writeThrough [Sink σ] (enter : Run σ Unit) (opener : Opener σ) (job : Job) :
    Nat → (muted : Bool) → Value → Run σ Exit
  | 0, _, _ => throw .exhausted
  | fuel + 1, muted, v => do
    enter
    step (writeThrough enter opener job fuel) opener job muted v

/-- Gives up when the state is not as expected. -/
def expect (p : State σ → Prop) [DecidablePred p] : Run σ Unit := do
  if p (← get) then pure () else throw .exhausted

/-- A computation that cannot be seen in a sound state. -/
def Unseen (job : Job) (enter : Run σ Unit) : Prop :=
  ∀ s, Sound job s → ∃ s', enter s = (.ok (), s') ∧ s'.view = s.view ∧ Sound job s'

variable {job : Job}

theorem unseen_pure : Unseen job (pure () : Run σ Unit) := by
  intro s h
  exact ⟨s, rfl, rfl, h⟩

theorem unseen_expect {p : State σ → Prop} [DecidablePred p] (hp : ∀ s, Sound job s → p s) :
    Unseen job (expect p) := by
  intro s h
  refine ⟨s, ?_, rfl, h⟩
  unfold expect
  rw [Run.bind_apply]
  show (if p s then pure () else throw .exhausted : Run σ Unit) s = _
  rw [if_pos (hp s h)]
  rfl

variable [Sink σ]

/-- Writing is the variant in which nothing is done. -/
theorem write_eq_writeThrough (job : Job) (n : Nat) :
    (write job n : Bool → Value → Run σ Exit) = writeThrough (pure ()) reopen job n := by
  induction n with
  | zero => rfl
  | succ n ih =>
    funext muted v
    rw [write, writeThrough, ih]
    rfl

/-- **Variants of a render go together**, for all that the need of the first is below its fuel. -/
theorem lockstep_writeThrough {d e : Run σ Unit} {f g : Opener σ} (hd : Unseen job d)
    (he : Unseen job e) (hf : Opens job f) (hg : Opens job g) (more n : Nat) :
    Lockstep job n (writeThrough d f job n) (writeThrough e g job (more + n)) := by
  induction n with
  | zero =>
    intro s t _ hn
    exact absurd hn (Nat.not_lt_zero _)
  | succ n ih =>
    intro s t h hn muted v
    obtain ⟨s₁, hs, hview, hsound⟩ := hd s h.left
    obtain ⟨t₁, ht, hview', hsound'⟩ := he t h.right
    have ha : After job s s₁ t₁ :=
      ⟨⟨hsound, hsound', by rw [hview, hview', h.view]⟩, .of_view hview⟩
    rw [writeThrough, Nat.add_succ, writeThrough, Run.bind_apply, Run.bind_apply, hs, ht]
    have step := ih.step hf hg ha.twin (Nat.lt_of_le_of_lt (ha.need_le h.left) hn) muted v
    exact step.mono fun _ _ _ h => ha.trans h

/-- Writing goes together with itself. -/
theorem lockstep_write (job : Job) (n : Nat) :
    Lockstep job n (write job n : Bool → Value → Run σ Exit) (write job n) := by
  have together : Lockstep job n (writeThrough (σ := σ) (pure ()) reopen job n)
      (writeThrough (pure ()) reopen job (0 + n)) :=
    lockstep_writeThrough unseen_pure unseen_pure opens_reopen opens_reopen 0 n
  rw [Nat.zero_add] at together
  rw [write_eq_writeThrough]
  exact @together

end Body

/-! ## Whole renders -/

/-- Results can be compared. -/
instance decidableEqResult {ε α : Type} [DecidableEq ε] [DecidableEq α] :
    DecidableEq (Except ε α)
  | .ok a, .ok b => decidable_of_iff (a = b) ⟨congrArg Except.ok, Except.ok.inj⟩
  | .error e, .error f => decidable_of_iff (e = f) ⟨congrArg Except.error, Except.error.inj⟩
  | .ok _, .error _ => .isFalse nofun
  | .error _, .ok _ => .isFalse nofun

/-- Renders that end alike: with the same result, the same text, and the same use of single-pass
sequences. -/
structure SameRender (x y : Except Halt Unit × Rendered σ) : Prop where
  result : x.1 = y.1
  sink : x.2.sink = y.2.sink
  streams : x.2.streams = y.2.streams

namespace Template

open Body

/-- The state in which a template starts that has just been opened. -/
def started (t : Template) (start : Rendered σ) (source : Source) : State σ :=
  { t.initial start with
    reader := Reader.ofSource source
    shelf := { start.shelf with opened := t.name :: start.shelf.opened } }

theorem sound_started {t : Template} {start : Rendered σ} {source : Source} (o : RenderOptions)
    (h : start.shelf.loader.openNamed t.name = .ok source) :
    Sound (t.job o) (t.started start source) := by
  have hreader : (Reader.ofSource source).Of start.shelf.loader t.name :=
    ⟨Reader.valid_ofSource source, source, h, rfl⟩
  refine ⟨⟨t.name, [], rfl, hreader⟩, List.nodup_cons.mpr ⟨List.not_mem_nil, .nil⟩, ?_, ?_,
    fun _ hm => nomatch hm⟩
  · intro name hm
    rw [List.mem_singleton.mp hm]
    exact List.mem_cons_self ..
  · intro name hm
    rw [List.mem_singleton.mp hm]
    exact ⟨source, h⟩

/-- The fuel of a render covers its need. -/
theorem need_started {t : Template} {start : Rendered σ} {source : Source} (o : RenderOptions)
    (h : start.shelf.loader.openNamed t.name = .ok source) :
    need (t.job o) (t.started start source) < fuelFor start.shelf.loader := by
  have hreach : (Reader.ofSource source).reach ≤ start.shelf.loader.size := by
    rw [Reader.reach_eq (Reader.valid_ofSource source)]
    exact Nat.le_trans (Nat.sub_le _ _)
      (Nat.le_trans (Reader.length_chars_script source) (Loader.size_le h))
  have htargets := start.shelf.loader.length_targets t.name
  show (Reader.ofSource source).reach + ((start.shelf.loader.targets t.name).length + 1 - 1) *
    (start.shelf.loader.size + 1) < (start.shelf.loader.size + 2) * (start.shelf.loader.size + 2)
  rw [Nat.add_sub_cancel]
  -- there are no more targets than bytes, and no more characters in any of them
  have hmul := Nat.mul_le_mul_right (start.shelf.loader.size + 1) htargets
  generalize start.shelf.loader.size = n at *
  have hsquare : (n + 2) * (n + 2) = n * (n + 1) + n + (2 * n + 4) := by
    simp only [Nat.add_mul, Nat.mul_add]
    omega
  omega

variable [Sink σ]

section

variable [Observer σ]

/-- What happens behind the opening of a template. -/
def behindOpening (w : Writer σ) (job : Job) (v : Value) (fuel : Nat) : Run σ Unit := do
  discard (Run.inScope (.caching []) (w job fuel false v))
  Run.checkSink false

theorem writeDictionary_apply (w : Writer σ) (t : Template) (o : RenderOptions) (v : Value)
    (start : Rendered σ) :
    writeDictionary w (t.job o) v (t.initial start) =
      match start.shelf.loader.openNamed t.name with
      | .ok source =>
        behindOpening w (t.job o) v (fuelFor start.shelf.loader) (t.started start source)
      | .error e =>
        (.error (.failed (if e.kind = .notFound then .templateNotFound t.name else .io e)),
          t.initial start) := by
  have hopen := openReader_apply .templateNotFound t.name (t.initial start)
  rw [show (t.initial start).shelf.loader = start.shelf.loader from rfl] at hopen
  unfold writeDictionary
  rw [Run.bind_apply, show (t.job o).template = t.name from rfl, hopen]
  cases start.shelf.loader.openNamed t.name <;> rfl

theorem writeBy_apply (w : Writer σ) (t : Template) (o : RenderOptions) (v : Value)
    (start : Rendered σ) :
    t.writeBy w o v start =
      if v.isNull then (.ok (), start)
      else match writeDictionary w (t.job o) v.asDictionary (t.initial start) with
        | (result, s) => (result, ⟨s.sink, s.streams, s.shelf⟩) := rfl

end

variable {w x : Writer σ}

/-- **Whole renders with bodies that go together end alike**, and not for want of fuel. -/
theorem writeBy_agree {t : Template} {o : RenderOptions} {start : Rendered σ}
    (L : Lockstep (t.job o) (fuelFor start.shelf.loader)
      (w (t.job o) (fuelFor start.shelf.loader)) (x (t.job o) (fuelFor start.shelf.loader)))
    (v : Value) :
    (t.writeBy w o v start).1 ≠ .error .exhausted ∧
      SameRender (t.writeBy w o v start) (t.writeBy x o v start) := by
  rw [writeBy_apply, writeBy_apply]
  by_cases hnull : v.isNull
  · rw [if_pos hnull, if_pos hnull]
    exact ⟨(fun heq => nomatch heq), rfl, rfl, rfl⟩
  · rw [if_neg hnull, if_neg hnull]
    -- behind the opening the bodies go together, and then the sink is asked once more
    have agree : Agree (fun _ => Visible)
        (writeDictionary w (t.job o) v.asDictionary (t.initial start))
        (writeDictionary x (t.job o) v.asDictionary (t.initial start)) := by
      rw [writeDictionary_apply, writeDictionary_apply]
      cases hopen : start.shelf.loader.openNamed t.name with
      | error e => exact .error ⟨(fun heq => nomatch heq), rfl, rfl, rfl, rfl⟩
      | ok source =>
        have hsound := sound_started o hopen
        have htwin : Twin (t.job o) (t.started start source) (t.started start source) :=
          .refl hsound
        have body : Agree (fun _ => After (t.job o) (t.started start source))
            (Run.inScope (.caching []) (w (t.job o) (fuelFor start.shelf.loader) false
              v.asDictionary) (t.started start source))
            (Run.inScope (.caching []) (x (t.job o) (fuelFor start.shelf.loader) false
              v.asDictionary) (t.started start source)) := by
          refine agree_inScope htwin (fun readers heq => (Scope.caching.inj heq).symm) fun h => ?_
          exact L h (need_started o hopen) false _
        dsimp only
        unfold behindOpening
        refine .bind body.discard fun _ s₁ t₁ h₁ => ?_
        exact (agree_checkSink h₁.twin false).mono fun _ _ _ h₂ => h₂.twin.visible
    cases hw : writeDictionary w (t.job o) v.asDictionary (t.initial start) with
    | mk result s =>
      cases hx : writeDictionary x (t.job o) v.asDictionary (t.initial start) with
      | mk result' s' =>
        rw [hw, hx] at agree
        cases agree with
        | ok hv => exact ⟨(fun heq => nomatch heq), rfl, hv.sink, hv.streams⟩
        | error hfail =>
          exact ⟨fun heq => hfail.1 (Except.error.inj heq), rfl, hfail.2.sink, hfail.2.streams⟩

/-- **A render is its variants**: with something done before each marker that nobody can see, with
readers from elsewhere, and with more fuel. -/
theorem write_same (t : Template) (o : RenderOptions) {enter : Run σ Unit} {opener : Opener σ}
    (he : Unseen (t.job o) enter) (ho : Opens (t.job o) opener) (more : Nat) (v : Value)
    (start : Rendered σ) :
    (t.write o v start).1 ≠ .error .exhausted ∧
      SameRender (t.write o v start)
        (t.writeBy (fun job fuel => writeThrough enter opener job (more + fuel)) o v start) := by
  refine writeBy_agree ?_ v
  rw [write_eq_writeThrough]
  exact lockstep_writeThrough unseen_pure he opens_reopen ho more _

end Template

end Stencil
