import Stencil.Proofs.Render.Twin

/-!
# Bodies in step

If two computations for bodies keep twins together, then so do all computations that are made of
them: sections, included templates, and the step from one marker to the next.  What the bodies need
is bounded by `need`, which every marker lowers: by the characters that can still be reached, and by
the templates that can still be included.

- `Lockstep`: two computations for bodies that keep twins together where `need` is small enough;
- `Lockstep.scan`, `Lockstep.conditional`: bodies that are read once;
- `Lockstep.each`, `Lockstep.sequence`, `Lockstep.repeating`: bodies that are read for each element.
-/

namespace Stencil

variable {σ : Type} {job : Job} {s t : State σ}

/-! ## Texts and single-pass sequences -/

theorem agree_texts (h : Twin job s t) :
    Agree (fun _ => After job s) (Run.texts job s) (Run.texts job t) := by
  have hbundle := h.bundle
  unfold Run.texts
  rw [← hbundle]
  cases hs : s.bundle with
  | some found => exact .ok (.refl h)
  | none =>
    cases job.bundle with
    | some given => exact .ok (h.setBundle _)
    | none =>
      have found := h.shelf.bundle (bundleBase job.template) job.settings.locale
      dsimp only
      cases hs : s.shelf.bundle (bundleBase job.template) job.settings.locale with
      | mk answer shelf =>
        cases ht : t.shelf.bundle (bundleBase job.template) job.settings.locale with
        | mk answer' shelf' =>
          rw [hs, ht] at found
          obtain ⟨ha, halike, hl, hl'⟩ := found
          obtain rfl : answer = answer' := ha
          cases answer with
          | ok found =>
            have hs := h.setShelf halike hl hl'
            exact .ok (hs.trans (hs.twin.setBundle _))
          | error e => exact .error ⟨(fun heq => nomatch heq), h.sink, h.streams, halike⟩

theorem agree_request {α : Type} {send : Streams → α × Streams}
    (hsend : ∀ streams : Streams, streams.Spent (send streams).2) (h : Twin job s t) :
    Agree (fun a s' t' => After job s s' t' ∧ a = (send s.streams).1 ∧
        s'.streams = (send s.streams).2)
      (Run.request send s) (Run.request send t) := by
  have step := h.setStreams (hsend s.streams)
  unfold Run.request
  rw [← h.streams]
  exact .ok ⟨step, rfl, rfl⟩

namespace Body

/-- The elements that are left at most. -/
def Elements.left (streams : Streams) : Elements → Nat
  | .list items => items.length
  | .stream id => streams.reserve id

theorem Elements.left_spent {streams streams' : Streams} (h : streams.Spent streams')
    (e : Elements) : e.left streams' ≤ e.left streams := by
  cases e with
  | list items => exact Nat.le_refl _
  | stream id => exact h id

/-- How much fuel is enough for an element and those behind it. -/
def covers (fuel : Nat) (element : Except DataError Value) (rest : Elements) (streams : Streams) :
    Prop :=
  match element with
  | .ok _ => rest.left streams + 2 ≤ fuel
  | .error _ => 1 ≤ fuel

/-- A sequence that has been asked further needs no more fuel. -/
theorem covers_spent {streams streams' : Streams} (h : streams.Spent streams') {fuel : Nat}
    {element : Except DataError Value} {rest : Elements} (hc : covers fuel element rest streams) :
    covers fuel element rest streams' := by
  cases element with
  | error e => exact hc
  | ok v => exact Nat.le_trans (Nat.add_le_add_right (rest.left_spent h) 2) hc

/-- An element that is given takes one off those that are left. -/
theorem next_covers {e rest : Elements} {element : Except DataError Value}
    (h : e.next s = (.ok (some element, rest), t)) {fuel : Nat}
    (hf : e.left s.streams + 1 ≤ fuel) : covers fuel element rest t.streams := by
  cases e with
  | list items =>
    cases items with
    | nil => cases h
    | cons _ items =>
      cases h
      cases element with
      | ok v => exact hf
      | error e => exact Nat.le_trans (Nat.le_add_left _ _) hf
  | stream id =>
    have hlt := @Streams.reserve_next_lt id s.streams
    change (Run.request (Streams.next id) >>= _) s = _ at h
    rw [Run.bind_apply, Run.request] at h
    dsimp only at h
    generalize Streams.next id s.streams = x at h hlt
    obtain ⟨answer, streams⟩ := x
    cases answer with
    | error e =>
      cases h
      exact Nat.le_trans (Nat.le_add_left _ _) hf
    | ok row =>
      cases row with
      | none => cases h
      | some row =>
        cases h
        exact Nat.le_trans (Nat.succ_le_succ (hlt rfl)) hf

theorem agree_next (h : Twin job s t) (e : Elements) :
    Agree (fun x s' t' => After job s s' t' ∧
        ∀ element, x.1 = some element → ∀ fuel, e.left s.streams + 1 ≤ fuel →
          covers fuel element x.2 s'.streams)
      (e.next s) (e.next t) := by
  have asked : Agree (fun _ => After job s) (e.next s) (e.next t) := by
    cases e with
    | list items => cases items <;> exact .same h
    | stream id =>
      refine .bind (agree_request (Streams.spent_next id) h) fun answer s' t' ⟨ha, _⟩ => ?_
      rcases answer with e | row | row <;> exact .pure ha
  generalize hs : e.next s = x at asked
  generalize e.next t = y at asked
  cases asked with
  | error hfail => exact .error hfail
  | @ok found s' t' ha =>
    obtain ⟨following, rest⟩ := found
    refine .ok ⟨ha, fun element heq fuel hf => ?_⟩
    obtain rfl : following = some element := heq
    exact next_covers hs hf

theorem agree_nonempty (h : Twin job s t) (e : Elements) :
    Agree (fun _ => After job s) (e.nonempty s) (e.nonempty t) := by
  cases e with
  | list items => exact .ok (.refl h)
  | stream id => exact (agree_request (Streams.spent_hasNext id) h).mono fun _ _ _ h => h.1

/-- What closing asks of the single-pass sequences. -/
def Elements.closing : Elements → Streams → Except DataError Unit × Streams
  | .list _, streams => (.ok (), streams)
  | .stream id, streams => streams.close id

theorem Elements.spent_closing (e : Elements) (streams : Streams) :
    streams.Spent (e.closing streams).2 := by
  cases e with
  | list items => exact .refl streams
  | stream id => exact Streams.spent_close id streams

theorem close_apply (e : Elements) (s : State σ) :
    e.close s = (.ok (e.closing s.streams).1, { s with streams := (e.closing s.streams).2 }) := by
  cases e <;> rfl

/-- What a section comes to: a failure of its elements comes before one of closing. -/
def ending (written : Except Halt Unit) (closing : Except DataError Unit) : Except Halt Unit :=
  match written with
  | .error h => .error h
  | .ok () => closing.mapError fun e => .failed (.source e)

/-- The state behind the closing of a sequence. -/
def Elements.shut [Observer σ] (e : Elements) (written : Except Halt Unit) (s : State σ) :
    State σ :=
  State.told { s with streams := (e.closing s.streams).2 }
    (.closed written (e.closing s.streams).1)

/-- A sequence is closed whatever happens, and a failure before comes before one of closing. -/
theorem sequence_told [Sink σ] [Observer σ] (b : Bool → Value → Run σ Exit) (name : String)
    (separator : Option String) (muted : Bool) (e : Elements) (s : State σ) :
    sequence b name separator muted e s =
      match iterated b name separator muted e (s.told (.reached e)) with
      | (written, s') => (ending written (e.closing s'.streams).1, e.shut written s') := by
  show (do
    let written ← ExceptT.lift (iterated b name separator muted e).run
    let closing ← e.close
    Run.notice (.closed written closing)
    sequence.liftExcept written
    Run.answered closing : Run σ Unit) (s.told (.reached e)) = _
  rw [Run.bind_apply, Run.lift_run_apply]
  dsimp only
  rw [Run.bind_apply, close_apply]
  cases iterated b name separator muted e (s.told (.reached e)) with
  | mk written s' =>
    cases written with
    | error halt => rfl
    | ok _ =>
      show (Run.answered (e.closing s'.streams).1 : Run σ Unit) (e.shut (.ok ()) s') = _
      dsimp only [ending]
      cases (e.closing s'.streams).1 <;> rfl

theorem sequence_apply [Sink σ] (b : Bool → Value → Run σ Exit) (name : String)
    (separator : Option String) (muted : Bool) (e : Elements) (s : State σ) :
    sequence b name separator muted e s =
      match iterated b name separator muted e s with
      | (.error halt, s) => (.error halt, { s with streams := (e.closing s.streams).2 })
      | (.ok _, s) => ((e.closing s.streams).1.mapError fun e => .failed (.source e),
        { s with streams := (e.closing s.streams).2 }) := by
  rw [sequence_told, Run.unheard]
  cases iterated b name separator muted e s with
  | mk written s' => cases written <;> rfl

/-! ## Variables -/

theorem agree_resolve (h : Twin job s t) (v : Value) (name : String) :
    Agree (fun _ => After job s) (resolve job v name s) (resolve job v name t) := by
  unfold resolve
  simp only [Run.unheard_bind]
  cases Reference.ofName name with
  | text key => exact .bind (agree_texts h) fun texts s' t' ha => .pure ha
  | setting key => exact .same h
  | path keys =>
    dsimp only
    cases v.lookup keys with
    | none => exact .same h
    | some found =>
      cases found with
      | null => exact .same h
      | scalar s => exact .same h
      | _ => exact .fail h _

theorem agree_holds (h : Twin job s t) (found : Option Value) :
    Agree (fun _ => After job s) ((holds found : Run σ Bool) s) ((holds found : Run σ Bool) t) := by
  have asked (elements : Elements) : Agree (fun _ => After job s)
      ((elements.nonempty >>= Run.answered : Run σ Bool) s)
      ((elements.nonempty >>= Run.answered : Run σ Bool) t) :=
    .bind (agree_nonempty h elements) fun answer s' t' ha =>
      .answered ha.twin answer fun _ _ => ha
  cases found with
  | none => exact .same h
  | some v =>
    cases v with
    | list items => exact asked (.list (items.map .ok))
    | series items => exact asked (.list items)
    | stream id => exact asked (.stream id)
    | scalar x => cases x <;> exact .same h
    | _ => exact .same h

variable [Sink σ]

theorem agree_substitute (h : Twin job s t) (muted : Bool) (v : Value) (m : Marker) :
    Agree (fun _ => After job s) (substitute job muted v m s) (substitute job muted v m t) := by
  unfold substitute
  refine .bind (agree_resolve h v m.name) fun found s' t' ha => ?_
  cases found with
  | none => exact .pure ha
  | some value =>
    exact (agree_emit ha.twin muted _).mono fun _ _ _ hb => ha.trans hb

end Body

/-! ## Scopes and sections -/

/-- A scope that keeps no readers yet may be opened. -/
theorem Sound.pushScope (h : Sound job s) {scope : Scope}
    (hscope : ∀ readers, scope = .caching readers → readers = []) :
    Sound job { s with scopes := scope :: s.scopes } := by
  refine ⟨h.reader, h.different, h.named, h.opens, fun readers hr e he => ?_⟩
  rcases List.mem_cons.mp hr with heq | hr
  · rw [hscope readers heq.symm] at he
    cases he
  · exact h.kept readers hr e he

theorem Twin.pushScope (h : Twin job s t) {scope : Scope}
    (hscope : ∀ readers, scope = .caching readers → readers = []) :
    Twin job { s with scopes := scope :: s.scopes } { t with scopes := scope :: t.scopes } := by
  refine h.setScopes (h.left.pushScope hscope) (h.right.pushScope hscope) ?_
  rw [List.map_cons, List.map_cons, h.discarding]

/-- Closing a scope forgets its readers. -/
theorem Twin.popScope (h : Twin job s t) :
    Twin job { s with scopes := s.scopes.tail } { t with scopes := t.scopes.tail } := by
  have sound {s : State σ} (h : Sound job s) : Sound job { s with scopes := s.scopes.tail } :=
    ⟨h.reader, h.different, h.named, h.opens,
      fun readers hr e he => h.kept readers (List.mem_of_mem_tail hr) e he⟩
  refine h.setScopes (sound h.left) (sound h.right) ?_
  rw [List.map_tail, List.map_tail, h.discarding]

theorem agree_inScope {α : Type} {c d : Run σ α} {scope : Scope} (h : Twin job s t)
    (hscope : ∀ readers, scope = .caching readers → readers = [])
    (hc : Twin job { s with scopes := scope :: s.scopes } { t with scopes := scope :: t.scopes } →
      Agree (fun _ => After job { s with scopes := scope :: s.scopes })
        (c { s with scopes := scope :: s.scopes }) (d { t with scopes := scope :: t.scopes })) :
    Agree (fun _ => After job s) (Run.inScope scope c s) (Run.inScope scope d t) := by
  rw [Run.inScope_silent, Run.inScope_silent, Run.bind_apply, Run.bind_apply]
  refine .bind (hc (h.pushScope hscope)) fun a s' t' ⟨hst, hf⟩ => ?_
  refine .ok ⟨hst.popScope, hf.reader, hf.spent, hf.loader, ?_, hf.sections, hf.active⟩
  have hd := hf.discarding
  rw [List.map_cons] at hd
  rw [List.map_tail, hd]
  rfl

theorem agree_inSection {α : Type} {c d : Run σ α} {name : String} (h : Twin job s t)
    (hc : Twin job { s with sections := name :: s.sections }
        { t with sections := name :: t.sections } →
      Agree (fun _ => After job { s with sections := name :: s.sections })
        (c { s with sections := name :: s.sections })
        (d { t with sections := name :: t.sections })) :
    Agree (fun _ => After job s) (Run.inSection name c s) (Run.inSection name d t) := by
  have hpush : Twin job { s with sections := name :: s.sections }
      { t with sections := name :: t.sections } := by
    rw [← h.sections]
    exact h.setSections _
  unfold Run.inSection
  rw [Run.bind_apply, Run.bind_apply]
  refine .bind (hc hpush) fun a s' t' ⟨hst, hf⟩ => ?_
  have hpop : Twin job { s' with sections := s'.sections.tail }
      { t' with sections := t'.sections.tail } := by
    rw [← hst.sections]
    exact hst.setSections _
  refine .ok ⟨hpop, hf.reader, hf.spent, hf.loader, hf.discarding, ?_, hf.active⟩
  show s'.sections.tail = s.sections
  rw [hf.sections]
  rfl

/-! ## Going back -/

theorem Reader.Same.mark {r r' : Reader} (h : r.Same r') : r.mark.Same r'.mark := by
  refine ⟨h.left.mark, h.right.mark, h.script, h.position, ?_⟩
  show r.position :: r.marks = r'.position :: r'.marks
  rw [h.position, h.marks]

theorem Reader.Same.reset {r r' : Reader} (h : r.Same r') : r.reset.Same r'.reset := by
  have hm := h.marks
  refine ⟨h.left.reset, h.right.reset, ?_, ?_, ?_⟩
  · rw [Reader.script_reset, Reader.script_reset, h.script]
  · unfold Reader.reset
    rw [← hm]
    cases r.marks <;> rfl
  · unfold Reader.reset
    rw [← hm]
    cases r.marks <;> rfl

/-! ## Bodies -/

/-- How much a body may still need: the characters in reach, and for each template that can still be
included as many characters as there are, and one. -/
def need (job : Job) (s : State σ) : Nat :=
  s.reader.reach + ((s.shelf.loader.targets job.template).length + 1 - s.active.length) *
    (s.shelf.loader.size + 1)

theorem After.need_le {s' t' : State σ} (h : Sound job s) (ha : After job s s' t') :
    need job s' ≤ need job s := by
  rw [need, need, ha.frame.loader, ha.frame.active]
  exact Nat.add_le_add_right (ha.reach_le h) _

/-- A marker lowers what is needed behind it, since at least a character has been read. -/
theorem Copied.need_lt {s₁ t₁ : State σ} {m : Option Marker} (hc : Copied job s m s₁ t₁)
    (hm : m.isSome) : need job s₁ < need job s := by
  rw [need, need, hc.after.frame.loader, hc.after.frame.active]
  exact Nat.add_lt_add_right (hc.reach hm) _

/-- Two computations for bodies that keep twins together where `need` is below `n`. -/
def Lockstep (job : Job) (n : Nat) (b c : Bool → Value → Run σ Exit) : Prop :=
  ∀ {s t : State σ}, Twin job s t → need job s < n → ∀ (muted : Bool) (v : Value),
    Agree (fun _ => After job s) (b muted v s) (c muted v t)

namespace Lockstep

open Body

variable {n : Nat} {b c : Bool → Value → Run σ Exit}

theorem closed (L : Lockstep job n b c) (h : Twin job s t) (hn : need job s < n) (name : String)
    (muted : Bool) (v : Value) :
    Agree (fun _ => After job s) (Body.closed b name muted v s) (Body.closed c name muted v t) := by
  unfold Body.closed
  refine .bind (L h hn muted v) fun exit s' t' ha => ?_
  cases exit with
  | sectionEnd => exact .ok ha
  | endOfText => exact .fail ha.twin _

theorem scan (L : Lockstep job n b c) (h : Twin job s t) (hn : need job s < n) (name : String) :
    Agree (fun _ => After job s) (Body.scan b name s) (Body.scan c name t) :=
  agree_inScope h (fun _ heq => nomatch heq) fun h => L.closed h hn name true _

theorem conditional (L : Lockstep job n b c) (h : Twin job s t) (hn : need job s < n) (m : Marker)
    (inverted muted : Bool) (v : Value) :
    Agree (fun _ => After job s) (Body.conditional b m inverted muted v s)
      (Body.conditional c m inverted muted v t) := by
  refine agree_inSection h fun h => ?_
  generalize v.lookup (pathOf m.name) = found
  refine .bind (agree_holds h found) fun holds s' t' ha => ?_
  have hn := Nat.lt_of_le_of_lt (ha.need_le h.left) hn
  have go {x y : Run σ Unit} (hxy : Agree (fun _ => After job s') (x s') (y t')) :
      Agree (fun _ => After job { s with sections := m.name :: s.sections }) (x s') (y t') :=
    hxy.mono fun _ _ _ hb => ha.trans hb
  cases holds with
  | false =>
    cases inverted with
    | false => exact go (L.scan ha.twin hn m.name)
    | true => exact go (L.closed ha.twin hn m.name muted v)
  | true =>
    cases inverted with
    | false =>
      cases found with
      | none => exact go (L.scan ha.twin hn m.name)
      | some value => exact go (L.closed ha.twin hn m.name muted value.asDictionary)
    | true => exact go (L.scan ha.twin hn m.name)

/-! ## Sequences -/

/-- A body between a mark and going back leaves the reader where it was. -/
theorem rewind_after {s' t' : State σ}
    (ha : After job { s with reader := s.reader.mark } s' t') :
    After job s { s' with reader := s'.reader.reset } { t' with reader := t'.reader.reset } := by
  obtain ⟨htwin, hf⟩ := ha
  have hmarks : s'.reader.marks = s.reader.position :: s.reader.marks := hf.reader.marks
  refine ⟨htwin.withReader htwin.reader.reset (Reader.script_reset _),
    ⟨?_, ?_, ?_⟩, hf.spent, hf.loader, hf.discarding, hf.sections, hf.active⟩
  · rw [Reader.script_reset, hf.reader.script, Reader.script_mark]
  · show s'.reader.reset.marks = s.reader.marks
    rw [Reader.reset, hmarks]
  · show s.reader.position ≤ s'.reader.reset.position
    simp only [Reader.reset, hmarks]
    exact Nat.le_refl _

variable [Sink σ]

theorem agree_separate (h : Twin job s t) (separator : Option String) (first muted : Bool) :
    Agree (fun _ => After job s) (separate separator first muted s)
      (separate separator first muted t) := by
  cases first with
  | true => exact .same h
  | false =>
    cases separator with
    | none => exact .same h
    | some text => exact agree_emit h muted text

/-- The loop over the elements.  The induction is on its fuel, which covers the elements that are
left; the body is entered from the same place each time. -/
theorem each (L : Lockstep job n b c) (name : String) (separator : Option String) (muted : Bool)
    (fuel : Nat) :
    ∀ {first : Bool} {element : Except DataError Value} {rest : Elements} {s t : State σ},
      Twin job s t → need job s < n → covers fuel element rest s.streams →
        Agree (fun _ => After job s) (Body.each b name separator muted fuel first element rest s)
          (Body.each c name separator muted fuel first element rest t) := by
  induction fuel with
  | zero =>
    intro first element rest s t _ _ hf
    cases element with
    | ok v => exact absurd hf (Nat.not_succ_le_zero _)
    | error e => exact absurd hf (Nat.not_succ_le_zero _)
  | succ fuel ih =>
    intro first element rest s t h hn hf
    unfold Body.each
    simp only [pull_silent]
    refine .bind (Q := fun _ s' t' => After job s s' t' ∧ s = s' ∧ ∃ v, element = .ok v) ?_ ?_
    · exact .answered h element fun v heq => ⟨.refl h, rfl, v, heq⟩
    rintro v s' t' ⟨ha, rfl, _, rfl⟩
    -- the element behind this one is asked for first: it decides whether to mark
    refine .bind (agree_next ha.twin rest) fun next s₁ t₁ ⟨h₁, hcover⟩ => ?_
    obtain ⟨following, rest'⟩ := next
    have hn₁ := Nat.lt_of_le_of_lt (h₁.need_le h.left) hn
    cases following with
    | none =>
      -- the last element: the body is read for the last time
      refine .bind (Agree.same h₁.twin) fun _ s₂ t₂ h₂ => ?_
      refine .bind (agree_separate h₂.twin separator first muted) fun _ s₃ t₃ h₃ => ?_
      have h₃ := h₂.trans h₃
      have hn₃ := Nat.lt_of_le_of_lt (h₃.need_le h₁.twin.left) hn₁
      refine .bind (L.closed h₃.twin hn₃ name muted _) fun _ s₄ t₄ h₄ => ?_
      exact .ok (h₁.trans (h₃.trans h₄))
    | some element =>
      -- the reader is marked before the body, and goes back for the element behind it
      have hmark : Twin job { s₁ with reader := s₁.reader.mark }
          { t₁ with reader := t₁.reader.mark } :=
        h₁.twin.withReader h₁.twin.reader.mark rfl
      refine .bind (Q := fun _ s' t' => After job { s₁ with reader := s₁.reader.mark } s' t')
        (.ok (.refl hmark)) fun _ s₂ t₂ h₂ => ?_
      refine .bind (agree_separate h₂.twin separator first muted) fun _ s₃ t₃ h₃ => ?_
      have h₃ := h₂.trans h₃
      have hn₃ : need job s₃ < n := Nat.lt_of_le_of_lt (h₃.need_le hmark.left) hn₁
      refine .bind (L.closed h₃.twin hn₃ name muted _) fun _ s₄ t₄ h₄ => ?_
      have hrewound := rewind_after (h₃.trans h₄)
      refine .bind (Q := fun _ s' t' => After job s₁ s' t') (.ok hrewound) fun _ s₅ t₅ h₅ => ?_
      have hn₅ := Nat.lt_of_le_of_lt (h₅.need_le h₁.twin.left) hn₁
      have hleft : rest.left s.streams + 1 ≤ fuel := Nat.le_of_succ_le_succ hf
      have hcover₅ : covers fuel element rest' s₅.streams :=
        covers_spent h₅.frame.spent (hcover element rfl fuel hleft)
      refine (ih h₅.twin hn₅ hcover₅).mono fun _ s₆ t₆ h₆ => ?_
      exact h₁.trans (h₅.trans h₆)

/-- What is done for all elements, but for closing the sequence. -/
theorem elements (L : Lockstep job n b c) (h : Twin job s t) (hn : need job s < n) (name : String)
    (separator : Option String) (muted : Bool) (e : Elements) :
    Agree (fun _ => After job s) (iterated b name separator muted e s)
      (iterated c name separator muted e t) := by
  unfold iterated
  simp only [pull_silent]
  refine .bind (Q := fun fuel s' t' => After job s s' t' ∧ e.left s'.streams + 1 ≤ fuel) ?_ ?_
  · cases e with
    | list items => exact .ok ⟨.refl h, Nat.le_refl _⟩
    | stream id =>
      have hle := Streams.reserve_le_stepsLeft id s.streams
      show Agree _ (Except.ok (s.streams.stepsLeft id + 2), s)
        (Except.ok (t.streams.stepsLeft id + 2), t)
      rw [← h.streams]
      exact .ok ⟨.refl h, Nat.le_trans (Nat.succ_le_succ hle) (Nat.le_succ _)⟩
  · intro fuel s₁ t₁ ⟨h₁, hfuel⟩
    refine .bind (agree_next h₁.twin e) fun next s₂ t₂ ⟨h₂, hcover⟩ => ?_
    have h₂ := h₁.trans h₂
    have hn₂ := Nat.lt_of_le_of_lt (h₂.need_le h.left) hn
    obtain ⟨first, rest⟩ := next
    cases first with
    | none => exact (L.scan h₂.twin hn₂ name).mono fun _ _ _ h₃ => h₂.trans h₃
    | some element =>
      have hcover := hcover element rfl fuel hfuel
      refine (agree_inScope h₂.twin ?_ fun hpush => ?_).mono fun _ _ _ h₃ => h₂.trans h₃
      · intro readers heq
        exact (Scope.caching.inj heq).symm
      · exact L.each name separator muted fuel hpush hn₂ hcover

/-- A sequence is closed in the same way whatever its body has done. -/
theorem sequence (L : Lockstep job n b c) (h : Twin job s t) (hn : need job s < n) (name : String)
    (separator : Option String) (muted : Bool) (e : Elements) :
    Agree (fun _ => After job s) (Body.sequence b name separator muted e s)
      (Body.sequence c name separator muted e t) := by
  have done := L.elements h hn name separator muted e
  rw [sequence_apply, sequence_apply]
  cases hs : iterated b name separator muted e s with
  | mk x s' =>
    cases ht : iterated c name separator muted e t with
    | mk y t' =>
      rw [hs, ht] at done
      cases done with
      | error hfail =>
        obtain ⟨hne, hv⟩ := hfail
        refine .error ⟨hne, hv.sink, ?_, hv.shelf⟩
        show (e.closing s'.streams).2 = (e.closing t'.streams).2
        rw [hv.streams]
      | ok ha =>
        have hclosed := ha.twin.setStreams (e.spent_closing s'.streams)
        dsimp only
        rw [← ha.twin.streams]
        cases (e.closing s'.streams).1 with
        | ok _ => exact .ok (ha.trans hclosed)
        | error e => exact .fail hclosed.twin _

theorem repeating (L : Lockstep job n b c) (h : Twin job s t) (hn : need job s < n) (m : Marker)
    (muted : Bool) (v : Value) :
    Agree (fun _ => After job s) (Body.repeating b m muted v s) (Body.repeating c m muted v t) := by
  refine agree_inSection h fun h => ?_
  cases v.lookup (pathOf m.name) with
  | none => exact L.scan h hn m.name
  | some found =>
    cases found with
    | null => exact L.scan h hn m.name
    | list items => exact L.sequence h hn m.name m.separator muted (.list (items.map .ok))
    | series items => exact L.sequence h hn m.name m.separator muted (.list items)
    | stream id => exact L.sequence h hn m.name m.separator muted (.stream id)
    | _ => exact .fail h _

end Lockstep

end Stencil
