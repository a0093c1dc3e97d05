import Stencil.Proofs.Render.Ledger
import Mathlib.Data.List.Forall2

/-!
# The ledger and the scopes

A scope keeps the readers of included templates under their names, and a reader is taken out while
its template is read.  So a name that has been opened in a scope is found there, or its template is
being read, and then it must not be included again.  This is the invariant that ties the ledger to
the state of a render.  Scopes are told apart by their numbers, so that what has been opened in one
of them says nothing about another.

- `Files`, `Tally`: what a scope keeps, and what the loader has opened;
- `Books`: **the invariant**; `Books.apart`: it does not depend on anything else;
- `Accounts`: a computation that keeps the ledger, and the same one without it; `Accounts.bind` is
  the rule for one after the other;
- `Accounts.of_silent`: computations that have nothing to do with included templates, such as those
  of `Accounts.requests` and `Accounts.copies`;
- `Accounts.inDiscarding`, `Accounts.inCaching`: scopes.
-/

namespace Stencil

open Body

variable {σ α β : Type} {job : Job} {base : List String}

/-! ## Apart from included templates -/

/-- The property lists in which the texts of a template are looked for. -/
def Job.textFiles (job : Job) : List String :=
  job.settings.locale.bundleSuffixes.map fun suffix =>
    bundleBase job.template ++ suffix ++ ".properties"

/-- Nothing has changed that has to do with included templates. -/
structure Apart (job : Job) (s s' : State σ) : Prop where
  scopes : s'.scopes = s.scopes
  active : s'.active = s.active
  opened : ∀ name ∉ job.textFiles, s'.shelf.opened.count name = s.shelf.opened.count name

theorem texts_apart (job : Job) (s : State σ) : Apart job s (Run.texts job s).2 := by
  have opened (name : String) (h : name ∉ job.textFiles) := Shelf.count_bundle h s.shelf
  unfold Run.texts
  split
  · exact ⟨rfl, rfl, fun _ _ => rfl⟩
  · split
    · exact ⟨rfl, rfl, fun _ _ => rfl⟩
    · generalize s.shelf.bundle (bundleBase job.template) job.settings.locale = x at opened
      obtain ⟨found, shelf⟩ := x
      cases found <;> exact ⟨rfl, rfl, opened⟩

theorem Consults.apart {c : Run σ α} (hc : Consults c) (s : State σ) : Apart job s (c s).2 := by
  rw [(hc s s rfl).2]
  exact ⟨rfl, rfl, fun _ _ => rfl⟩

/-! ## The invariant -/

/-- Where a render is: inside of so many bodies that are only scanned, and of these scopes, the
innermost first; and the included templates that are being read, with the scopes of their
markers. -/
structure Whereabouts where
  scanned : Nat
  scopes : List Nat
  reading : List (Nat × String)

/-- Inside a body that is only scanned nothing has a value. -/
def Whereabouts.Fits (p : Whereabouts) (v : Value) : Prop := p.scanned = 0 ∨ v = .own .null

/-- A scope keeps the readers of the templates that have been opened in it, but for those that are
being read. -/
def Files (opened reading : List (Nat × String)) (i : Nat) (readers : List (String × Reader)) :
    Prop :=
  ∀ name, (i, name) ∈ opened ↔ (Fields.get? name readers).isSome ∨ (i, name) ∈ reading

/-- No scope has opened a template twice, and the loader has opened what the ledger tells, besides
what had been opened before and the property lists. -/
structure Tally (job : Job) (base : List String) (opened : List (Nat × String))
    (names : List String) : Prop where
  once : opened.Nodup
  shelf : ∀ name ∉ job.textFiles, names.count name =
    base.count name + (opened.map fun e => resolveRelative job.template e.2).count name

/-- **The invariant.**  The ledger agrees with the scopes of the render and with the loader: what
has been reached in a scope has been opened there, once, and is kept there or being read. -/
structure Books (job : Job) (base : List String) (p : Whereabouts) (s : State (Ledger σ)) :
    Prop where
  inside : s.sink.inside = List.replicate p.scanned none ++ p.scopes.map some
  kept : ∃ caches, s.scopes = List.replicate p.scanned .discarding ++ caches.map .caching ∧
    List.Forall₂ (Files s.sink.opened p.reading) p.scopes caches
  rooted : p.scopes ≠ []
  different : p.scopes.Nodup
  numbered : ∀ i ∈ p.scopes, i < s.sink.next
  known : ∀ e ∈ s.sink.opened, e.1 < s.sink.next
  reached : ∀ e, e ∈ s.sink.reached ↔ e ∈ s.sink.opened
  reading : ∀ e ∈ p.reading, e ∈ s.sink.opened ∧ resolveRelative job.template e.2 ∈ s.active
  tally : Tally job base s.sink.opened s.shelf.opened

/-- What a computation that keeps the ledger comes to, and what it comes to without. -/
inductive Accounted (job : Job) (base : List String) (p : Whereabouts) :
    Except Halt α × State (Ledger σ) → Except Halt α × State σ → Prop where
  | answer {a : α} {s : State (Ledger σ)} (h : Books job base p s) :
    Accounted job base p (.ok a, s) (.ok a, s.forget)
  | failure {e : Halt} {s : State (Ledger σ)} (h : Tally job base s.sink.opened s.shelf.opened) :
    Accounted job base p (.error e, s) (.error e, s.forget)

/-- A computation that keeps the ledger, and the same one without. -/
def Accounts (job : Job) (base : List String) (p : Whereabouts) (c : Run (Ledger σ) α)
    (d : Run σ α) : Prop :=
  ∀ s, Books job base p s → Accounted job base p (c s) (d s.forget)

namespace Books

variable {p : Whereabouts} {s s' : State (Ledger σ)}

/-- The sink behind the ledger may change, and what has nothing to do with included templates. -/
theorem apart (h : Books job base p s) (ha : Apart job s s')
    (hs : s'.sink = { s.sink with sink := s'.sink.sink }) : Books job base p s' where
  inside := by rw [hs]; exact h.inside
  kept := by rw [hs, ha.scopes]; exact h.kept
  rooted := h.rooted
  different := h.different
  numbered := by rw [hs]; exact h.numbered
  known := by rw [hs]; exact h.known
  reached := by rw [hs]; exact h.reached
  reading := by rw [hs, ha.active]; exact h.reading
  tally := by
    rw [hs]
    exact ⟨h.tally.once, fun name hn => (ha.opened name hn).trans (h.tally.shelf name hn)⟩

end Books

namespace Accounts

variable {p : Whereabouts} {c : Run (Ledger σ) α} {d : Run σ α} {k : α → Run (Ledger σ) β}
  {l : α → Run σ β}

theorem bind (h : Accounts job base p c d) (hk : ∀ a, Accounts job base p (k a) (l a)) :
    Accounts job base p (c >>= k) (d >>= l) := by
  intro s hs
  have first := h s hs
  rw [Run.bind_apply, Run.bind_apply]
  generalize c s = x at first
  generalize d s.forget = y at first
  cases first with
  | answer hs' => exact hk _ _ hs'
  | failure hs' => exact .failure hs'

theorem of_silent (h : Silent c d) (hc : ∀ s, Apart job s (c s).2) : Accounts job base p c d := by
  intro s hs
  obtain ⟨hd, hsink⟩ := h s s.sink.sink
  have apart := hc s
  rw [State.forget, hd]
  generalize c s = x at hsink apart
  obtain ⟨answer, s'⟩ := x
  have hs' := hs.apart apart (by rw [hsink])
  rw [← hsink]
  cases answer with
  | ok a => exact .answer hs'
  | error e => exact .failure hs'.tally

theorem pure (a : α) : Accounts job base p (Pure.pure a : Run (Ledger σ) α) (Pure.pure a) :=
  fun _ hs => .answer hs

theorem fail (e : RenderError) :
    Accounts job base p (Run.fail e : Run (Ledger σ) α) (Run.fail e : Run σ α) :=
  fun _ hs => .failure hs.tally

theorem compositional :
    Compositional fun _ (c : Run (Ledger σ) _) (d : Run σ _) => Accounts job base p c d where
  answer := pure
  halt _ := fun _ hs => .failure hs.tally
  bind := bind

theorem consulting (h : Silent c d) (hc : Consults c) : Accounts job base p c d :=
  of_silent h hc.apart

/-- Of most occasions the ledger tells nothing. -/
theorem untold {o : Occasion} (h : ∀ l : Ledger σ, Observer.notice o l = l) :
    Accounts job base p (Run.notice o : Run (Ledger σ) Unit) (Run.notice o) := by
  intro s hs
  have hsame : s.told o = s := by rw [State.told, h]
  show Accounted job base p (.ok (), s.told o) _
  rw [hsame]
  exact .answer hs

theorem looks :
    Compositional.Looks fun _ (c : Run (Ledger σ) _) (d : Run σ _) => Accounts job base p c d where
  toCompositional := compositional
  look h := fun s hs => h s s.forget ⟨rfl, rfl, rfl, rfl⟩ s hs

theorem requests :
    Compositional.Requests fun _ (c : Run (Ledger σ) _) d => Accounts job base p c d where
  toCompositional := compositional
  stepsLeft id := consulting (Silent.requests.stepsLeft id) (consults_bound (.stream id))
  nextRow id := consulting (Silent.requests.nextRow id) (.request _)
  hasNext id := consulting (Silent.requests.hasNext id) (.request _)

theorem markIf (more : Bool) :
    Accounts job base p (Body.markIf more : Run (Ledger σ) Unit) (Body.markIf more) := by
  refine of_silent (Aloof.markIf more).silent fun s => ?_
  cases more <;> exact ⟨rfl, rfl, fun _ _ => rfl⟩

theorem rewind : Accounts job base p (Body.rewind : Run (Ledger σ) Unit) Body.rewind :=
  of_silent Aloof.rewind.silent fun _ => ⟨rfl, rfl, fun _ _ => rfl⟩

theorem texts :
    Accounts job base p (Run.texts job : Run (Ledger σ) (Option Bundle)) (Run.texts job) :=
  of_silent (Aloof.texts job).silent (texts_apart job)

theorem resolve (v : Value) (name : String) :
    Accounts job base p (Body.resolve job v name : Run (Ledger σ) (Option Scalar))
      (Body.resolve job v name) :=
  compositional.resolve (untold fun _ => rfl) texts v name

theorem holds (found : Option Value) :
    Accounts job base p (Body.holds found : Run (Ledger σ) Bool) (Body.holds found) :=
  requests.holds (fun _ => untold fun _ => rfl) found

/-- A sequence is asked for its next element. -/
theorem pull (elements : Elements) :
    Accounts job base p (Body.pull elements : Run (Ledger σ) _) (Body.pull elements) := by
  refine (untold fun _ => rfl).bind fun _ => (requests.next elements).bind fun answer => ?_
  exact (untold fun _ => rfl).bind fun _ => pure _

theorem inSection (h : Accounts job base p c d) (name : String) :
    Accounts job base p (Run.inSection name c) (Run.inSection name d) := by
  intro s hs
  have inner := h { s with sections := name :: s.sections }
    (hs.apart ⟨rfl, rfl, fun _ _ => rfl⟩ rfl)
  rw [inSection_apply, inSection_apply]
  change Accounted job base p _ (d { s.forget with sections := name :: s.forget.sections }) at inner
  generalize c { s with sections := name :: s.sections } = x at inner
  generalize d { s.forget with sections := name :: s.forget.sections } = y at inner
  cases inner with
  | @answer a s' hs' =>
    exact .answer (s := { s' with sections := s'.sections.tail })
      (hs'.apart ⟨rfl, rfl, fun _ _ => rfl⟩ rfl)
  | failure hs' => exact .failure hs'

/-! ### Writing -/

variable [Sink σ]

theorem emit (muted : Bool) (text : String) :
    Accounts job base p (Run.emit muted text : Run (Ledger σ) Unit) (Run.emit muted text) := by
  intro s hs
  cases muted with
  | true => exact .answer hs
  | false =>
    exact .answer (s := { s with sink := Sink.write s.sink text })
      (hs.apart ⟨rfl, rfl, fun _ _ => rfl⟩ rfl)

theorem copies :
    Compositional.Copies fun _ (c : Run (Ledger σ) _) (d : Run σ _) => Accounts job base p c d where
  toCompositional := compositional
  readChar := by
    refine of_silent Aloof.readChar.silent fun s => ?_
    unfold Run.readChar
    split <;> exact ⟨rfl, rfl, fun _ _ => rfl⟩
  readMarker := by
    refine of_silent Aloof.readMarker.silent fun s => ?_
    unfold Run.readMarker
    split <;> exact ⟨rfl, rfl, fun _ _ => rfl⟩
  checkSink muted := by
    intro s hs
    rw [checkSink_apply, checkSink_apply]
    show Accounted job base p _ (if !muted && Sink.failed s.sink then _ else _)
    split
    · exact .failure hs.tally
    · exact .answer hs
  emit := emit

end Accounts

/-! ## Scopes -/

/-- What is known of the templates of other scopes does not change with one template. -/
theorem files_congr {opened opened' reading reading' : List (Nat × String)} {scopes : List Nat}
    {caches : List (List (String × Reader))} (h : List.Forall₂ (Files opened reading) scopes caches)
    (ho : ∀ i ∈ scopes, ∀ name, (i, name) ∈ opened' ↔ (i, name) ∈ opened)
    (hr : ∀ i ∈ scopes, ∀ name, (i, name) ∈ reading' ↔ (i, name) ∈ reading) :
    List.Forall₂ (Files opened' reading') scopes caches := by
  induction h with
  | nil => exact .nil
  | @cons i readers scopes caches hfiles _ ih =>
    refine .cons (fun name => ?_) (ih (fun j hj => ho j (List.mem_cons_of_mem _ hj))
      fun j hj => hr j (List.mem_cons_of_mem _ hj))
    rw [ho i (List.mem_cons_self ..), hr i (List.mem_cons_self ..)]
    exact hfiles name

namespace Books

variable {p : Whereabouts} {s s' : State (Ledger σ)}

theorem pushDiscarding (h : Books job base p s) :
    Books job base { p with scanned := p.scanned + 1 } (s.push .discarding) := { h with
  inside := congrArg (none :: ·) h.inside
  kept := by
    obtain ⟨caches, hscopes, hfiles⟩ := h.kept
    exact ⟨caches, congrArg (Scope.discarding :: ·) hscopes, hfiles⟩ }

theorem popDiscarding (h : Books job base { p with scanned := p.scanned + 1 } s) :
    Books job base p s.pop := { h with
  inside := congrArg List.tail h.inside
  kept := by
    obtain ⟨caches, hscopes, hfiles⟩ := h.kept
    exact ⟨caches, congrArg List.tail hscopes, hfiles⟩ }

/-- A new scope has a new number, so that nothing has been opened in it. -/
theorem pushCaching (h : Books job base p s) (hp : p.scanned = 0) :
    Books job base { p with scopes := s.sink.next :: p.scopes } (s.push (.caching [])) := { h with
  inside := by
    have hinside := h.inside
    rw [hp] at hinside ⊢
    exact congrArg (some s.sink.next :: ·) hinside
  kept := by
    obtain ⟨caches, hscopes, hfiles⟩ := h.kept
    refine ⟨[] :: caches, ?_, .cons (fun name => ?_) hfiles⟩
    · rw [hp] at hscopes ⊢
      exact congrArg (Scope.caching [] :: ·) hscopes
    · have fresh : (s.sink.next, name) ∉ s.sink.opened :=
        fun hm => Nat.lt_irrefl _ (h.known _ hm)
      refine ⟨fun hm => absurd hm fresh, fun hm => ?_⟩
      rcases hm with hm | hm
      · cases hm
      · exact (h.reading _ hm).1
  rooted := List.cons_ne_nil _ _
  different := List.nodup_cons.mpr ⟨fun hm => Nat.lt_irrefl _ (h.numbered _ hm), h.different⟩
  numbered := by
    intro i hi
    rcases List.mem_cons.mp hi with rfl | hi
    · exact Nat.lt_succ_self _
    · exact Nat.lt_succ_of_lt (h.numbered i hi)
  known := fun e he => Nat.lt_succ_of_lt (h.known e he) }

theorem popCaching {i : Nat} (h : Books job base { p with scopes := i :: p.scopes } s)
    (hp : p.scanned = 0) (hrooted : p.scopes ≠ []) : Books job base p s.pop := { h with
  inside := by
    have hinside := congrArg List.tail h.inside
    rw [hp] at hinside ⊢
    exact hinside
  kept := by
    obtain ⟨caches, hscopes, hfiles⟩ := h.kept
    obtain ⟨readers, outer, -, houter, rfl⟩ := List.forall₂_cons_left_iff.mp hfiles
    refine ⟨outer, ?_, houter⟩
    have htail := congrArg List.tail hscopes
    rw [hp] at htail ⊢
    exact htail
  rooted := hrooted
  different := (List.nodup_cons.mp h.different).2
  numbered := fun i hi => h.numbered i (List.mem_cons_of_mem _ hi) }

end Books

namespace Accounts

variable {p : Whereabouts} {c : Run (Ledger σ) α} {d : Run σ α}

/-- A scope is entered and left. -/
theorem inScope {scope : Scope}
    (h : ∀ s : State (Ledger σ), Books job base p s → ∃ p', Books job base p' (s.push scope) ∧
      Accounts job base p' c d ∧
        ∀ s' : State (Ledger σ), Books job base p' s' → Books job base p s'.pop) :
    Accounts job base p (Run.inScope scope c) (Run.inScope scope d) := by
  intro s hs
  obtain ⟨p', hpush, hc, hpop⟩ := h s hs
  have inner := hc (s.push scope) hpush
  have hforget : (s.push scope).forget = { s.forget with scopes := scope :: s.forget.scopes } := by
    cases scope <;> rfl
  rw [hforget] at inner
  rw [inScope_told, inScope_apply]
  generalize c (s.push scope) = x at inner
  generalize d { s.forget with scopes := scope :: s.forget.scopes } = y at inner
  cases inner with
  | @answer a s' hs' => exact .answer (s := s'.pop) (hpop s' hs')
  | failure hs' => exact .failure hs'

theorem inDiscarding (h : Accounts job base { p with scanned := p.scanned + 1 } c d) :
    Accounts job base p (Run.inScope .discarding c) (Run.inScope .discarding d) :=
  inScope fun _ hs => ⟨_, hs.pushDiscarding, h, fun _ hs' => hs'.popDiscarding⟩

theorem inCaching (hp : p.scanned = 0)
    (h : ∀ i, Accounts job base { p with scopes := i :: p.scopes } c d) :
    Accounts job base p (Run.inScope (.caching []) c) (Run.inScope (.caching []) d) :=
  inScope fun _ hs =>
    ⟨_, hs.pushCaching hp, h _, fun _ hs' => hs'.popCaching hp hs.rooted⟩

end Accounts

end Stencil
