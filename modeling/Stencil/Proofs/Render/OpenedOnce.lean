import Stencil.Proofs.Data.Fields
import Stencil.Proofs.Render.Accounts
import Stencil.Proofs.Render.Scanning

/-!
# Included templates are opened once in a scope

The root of a render is a scope, and so is each entry into a section over elements, whatever the
number of these.  A marker for an included template opens it, unless it has been opened in the same
scope before; conditional sections and included templates share the scope around them, and inside a
body that is only scanned nothing is opened.

- `Books.enter`, `Books.leave`: **the invariant around an included template**;
- `BodiesAccount`: bodies that keep the ledger, and the same ones without it;
- `BodiesAccount.included`, `BodiesAccount.step`: **one more marker**;
- `Template.write_opensOnce`: **no scope opens a template twice**, and a template is opened in each
  scope in which it is reached.
-/

namespace Stencil

open Body

variable {σ : Type} {job : Job} {base : List String}

/-! ## Bodies -/

/-- Bodies that keep the ledger, and the same ones without. -/
def BodiesAccount (job : Job) (base : List String) (b : Bool → Value → Run (Ledger σ) Exit)
    (c : Bool → Value → Run σ Exit) : Prop :=
  ∀ (p : Whereabouts) (muted : Bool) (v : Value), p.Fits v →
    Accounts job base p (b muted v) (c muted v)

namespace BodiesAccount

variable {b : Bool → Value → Run (Ledger σ) Exit} {c : Bool → Value → Run σ Exit}
  {p : Whereabouts} {v : Value}

theorem closed (B : BodiesAccount job base b c) (hv : p.Fits v)
    (name : String) (muted : Bool) :
    Accounts job base p (Body.closed b name muted v) (Body.closed c name muted v) := by
  refine (B p muted v hv).bind fun exit => ?_
  cases exit with
  | sectionEnd => exact .pure ()
  | endOfText => exact .fail _

theorem scan (B : BodiesAccount job base b c) (name : String) :
    Accounts job base p (Body.scan b name) (Body.scan c name) :=
  .inDiscarding (B.closed (.inr rfl) name true)

theorem conditional (B : BodiesAccount job base b c) (hv : p.Fits v)
    (m : Marker) (inverted muted : Bool) :
    Accounts job base p (Body.conditional b m inverted muted v)
      (Body.conditional c m inverted muted v) := by
  have found {value : Value} (h : v.lookup (pathOf m.name) = some value) :
      p.Fits value.asDictionary := by
    rcases hv with hp | rfl
    · exact .inl hp
    · -- what the dictionary without values answers is null
      rcases Value.lookup_own_null (pathOf_ne_nil m.name) with hnull | hnull <;> rw [hnull] at h
      · cases h
      · rw [← Option.some.inj h]
        exact .inr rfl
  refine .inSection ((Accounts.holds _).bind fun holds => ?_) m.name
  cases hfound : v.lookup (pathOf m.name) with
  | none =>
    cases holds <;> cases inverted
    all_goals first | exact B.closed hv m.name muted | exact B.scan m.name
  | some value =>
    cases holds <;> cases inverted
    case true.false => exact B.closed (found hfound) m.name muted
    all_goals first | exact B.closed hv m.name muted | exact B.scan m.name

variable [Sink σ]

/-- The loop over the elements, by induction on its fuel. -/
theorem each (B : BodiesAccount job base b c) (hp : p.scanned = 0) (name : String)
    (separator : Option String) (muted : Bool) (fuel : Nat) :
    ∀ (first : Bool) (element : Except DataError Value) (rest : Elements),
      Accounts job base p (Body.each b name separator muted fuel first element rest)
        (Body.each c name separator muted fuel first element rest) := by
  induction fuel with
  | zero => exact fun _ _ _ => Accounts.compositional.halt .exhausted
  | succ fuel ih =>
    intro first element rest
    have separate : Accounts job base p
        (Body.separate separator first muted : Run (Ledger σ) Unit)
        (Body.separate separator first muted) :=
      Accounts.compositional.separate Accounts.emit separator first muted
    unfold Body.each
    refine (Accounts.compositional.answered element).bind fun v => ?_
    refine (Accounts.pull rest).bind fun next => ?_
    obtain ⟨following, rest⟩ := next
    refine (Accounts.markIf _).bind fun _ => ?_
    refine separate.bind fun _ => ?_
    refine (B.closed (.inl hp) name muted).bind fun _ => ?_
    cases following with
    | none => exact .pure ()
    | some element => exact Accounts.rewind.bind fun _ => ih false element rest

theorem iterated (B : BodiesAccount job base b c) (hp : p.scanned = 0) (name : String)
    (separator : Option String) (muted : Bool) (e : Elements) :
    Accounts job base p (Body.iterated b name separator muted e)
      (Body.iterated c name separator muted e) := by
  refine (Accounts.requests.bound e).bind fun fuel => (Accounts.pull e).bind fun next => ?_
  obtain ⟨first, rest⟩ := next
  cases first with
  | none => exact B.scan name
  | some element =>
    refine .inCaching hp fun i => B.each ?_ name separator muted fuel true element rest
    exact hp

/-- Closing a sequence has nothing to do with included templates. -/
theorem sequence (B : BodiesAccount job base b c) (hp : p.scanned = 0) (name : String)
    (separator : Option String) (muted : Bool) (e : Elements) :
    Accounts job base p (Body.sequence b name separator muted e)
      (Body.sequence c name separator muted e) := by
  intro s hs
  have inner := B.iterated hp name separator muted e s hs
  rw [sequence_told, sequence_told]
  change Accounted job base p (Body.iterated b name separator muted e (s.told (.reached e)))
    (Body.iterated c name separator muted e (s.forget.told (.reached e))) at inner
  generalize Body.iterated b name separator muted e (s.told (.reached e)) = x at inner
  generalize Body.iterated c name separator muted e (s.forget.told (.reached e)) = y at inner
  cases inner with
  | @failure h s' hs' => exact .failure (s := e.shut (.error h) s') hs'
  | @answer a s' hs' =>
    have apart : Apart job s' (e.shut (.ok a) s') := ⟨rfl, rfl, fun _ _ => rfl⟩
    have hdone := hs'.apart apart rfl
    dsimp only [ending, State.forget, State.withSink, State.reseat]
    cases (e.closing s'.streams).1 with
    | ok _ => exact .answer hdone
    | error e => exact .failure hdone.tally

theorem repeating (B : BodiesAccount job base b c) (hv : p.Fits v)
    (m : Marker) (muted : Bool) :
    Accounts job base p (Body.repeating b m muted v) (Body.repeating c m muted v) := by
  refine .inSection ?_ m.name
  rcases hv with hp | rfl
  · cases v.lookup (pathOf m.name) with
    | none => exact B.scan m.name
    | some found =>
      cases found with
      | null => exact B.scan m.name
      | list items => exact B.sequence hp m.name m.separator muted (.list (items.map .ok))
      | series items => exact B.sequence hp m.name m.separator muted (.list items)
      | stream id => exact B.sequence hp m.name m.separator muted (.stream id)
      | _ => exact .fail _
  · rcases Value.lookup_own_null (pathOf_ne_nil m.name) with h | h <;> rw [h]
    · exact B.scan m.name
    · exact B.scan m.name

end BodiesAccount

/-! ## Included templates -/

section

variable {s : State σ} {readers : List (String × Reader)} {rest : List Scope}

theorem takeReader_caching (h : s.scopes = .caching readers :: rest) (name : String) :
    takeReader name s = (.ok (Fields.get? name readers),
      { s with scopes := .caching (readers.filter (·.1 ≠ name)) :: rest }) := by
  unfold takeReader
  rw [h]

theorem keepReader_caching (h : s.scopes = .caching readers :: rest) (name : String) (r : Reader) :
    keepReader name r s =
      (.ok (), { s with scopes := .caching (Fields.put name r readers) :: rest }) := by
  obtain ⟨_, _, _, _, _, scopes, _, _⟩ := s
  subst h
  rfl

end

namespace Ledger

variable {l : Ledger σ}

theorem scope?_scanned {n : Nat} {scopes : List (Option Nat)}
    (h : l.inside = List.replicate (n + 1) none ++ scopes) : l.scope? = none :=
  if_pos (h ▸ List.mem_cons_self ..)

theorem scope?_numbered {i : Nat} {outer : List Nat} (h : l.inside = (i :: outer).map some) :
    l.scope? = some i := by
  have hnone : none ∉ l.inside := by
    rw [h]
    simp
  rw [scope?, if_neg hnone, h]
  rfl

end Ledger

namespace Files

variable {opened opened' reading : List (Nat × String)} {i : Nat} {name : String}
  {readers : List (String × Reader)}

/-- A template is being read, and its reader is not kept. -/
theorem take (h : Files opened reading i readers)
    (hopened : ∀ e, e ∈ opened' ↔ e = (i, name) ∨ e ∈ opened) :
    Files opened' ((i, name) :: reading) i (readers.filter (·.1 ≠ name)) := by
  intro other
  rw [hopened, Fields.get?_without, List.mem_cons]
  by_cases ho : other = name
  · subst ho
    simp
  · rw [if_neg ho, h other]
    simp [ho]

/-- A template has been read, and its reader is kept. -/
theorem keep (h : Files opened ((i, name) :: reading) i readers) (r : Reader) :
    Files opened reading i (Fields.put name r readers) := by
  intro other
  have hother := h other
  rw [List.mem_cons] at hother
  rw [hother]
  by_cases ho : other = name
  · subst ho
    simp [Fields.get?_put_self]
  · rw [Fields.get?_put_of_ne ho]
    simp [ho]

end Files

/-- One more template is opened. -/
theorem Tally.opening {opened : List (Nat × String)} {names : List String} {e : Nat × String}
    (h : Tally job base opened names) (he : e ∉ opened) :
    Tally job base (e :: opened) (resolveRelative job.template e.2 :: names) where
  once := List.nodup_cons.mpr ⟨he, h.once⟩
  shelf := by
    intro name hname
    rw [List.map_cons, List.count_cons, List.count_cons, h.shelf name hname, Nat.add_assoc]

namespace Books

variable {s : State (Ledger σ)} {i : Nat} {outer : List Nat} {reading : List (Nat × String)}
  {readers : List (String × Reader)} {rest : List Scope} {name : String}

/-- The readers of the innermost scope, and those of the scopes around it. -/
theorem files (h : Books job base ⟨0, i :: outer, reading⟩ s)
    (hscopes : s.scopes = .caching readers :: rest) :
    Files s.sink.opened reading i readers ∧ ∃ caches, rest = caches.map .caching ∧
      List.Forall₂ (Files s.sink.opened reading) outer caches := by
  obtain ⟨caches, hcaches, hfiles⟩ := h.kept
  obtain ⟨readers', caches, hfirst, houter, rfl⟩ := List.forall₂_cons_left_iff.mp hfiles
  obtain ⟨hreaders, rfl⟩ := List.cons.inj (hscopes.symm.trans hcaches)
  rw [Scope.caching.inj hreaders]
  exact ⟨hfirst, caches, rfl, houter⟩

theorem elsewhere (h : Books job base ⟨0, i :: outer, reading⟩ s) {j : Nat} {other : String}
    (hj : j ∈ outer) : (j, other) ≠ (i, name) := by
  intro heq
  rw [show j = i from congrArg Prod.fst heq] at hj
  exact (List.nodup_cons.mp h.different).1 hj

/-- **A marker for an included template is carried out.**  When no reader is kept for it, the
template has not been opened in this scope, and it is opened now. -/
theorem enter (h : Books job base ⟨0, i :: outer, reading⟩ s)
    (hscopes : s.scopes = .caching readers :: rest)
    (hactive : resolveRelative job.template name ∉ s.active) {opened : List (Nat × String)}
    {names : List String} (hopened :
      ((Fields.get? name readers).isSome ∧ opened = s.sink.opened ∧ names = s.shelf.opened) ∨
      (Fields.get? name readers = none ∧ opened = (i, name) :: s.sink.opened ∧
        names = resolveRelative job.template name :: s.shelf.opened)) (r : Reader) :
    Books job base ⟨0, i :: outer, (i, name) :: reading⟩
      { s with
        sink := { s.sink with reached := (i, name) :: s.sink.reached, opened := opened }
        reader := r
        shelf := { s.shelf with opened := names }
        scopes := .caching (readers.filter (·.1 ≠ name)) :: rest
        sections := []
        active := resolveRelative job.template name :: s.active } := by
  obtain ⟨hfirst, caches, rfl, houter⟩ := h.files hscopes
  have hmem : ∀ e, e ∈ opened ↔ e = (i, name) ∨ e ∈ s.sink.opened := by
    intro e
    rcases hopened with ⟨hkept, rfl, -⟩ | ⟨-, rfl, -⟩
    · refine ⟨.inr, fun he => ?_⟩
      rcases he with rfl | he
      · exact (hfirst name).mpr (.inl hkept)
      · exact he
    · exact List.mem_cons
  refine { h with kept := ?_, known := ?_, reached := ?_, reading := ?_, tally := ?_ }
  · refine ⟨_ :: caches, rfl, .cons (hfirst.take hmem) (files_congr houter ?_ ?_)⟩
    · intro j hj other
      show (j, other) ∈ opened ↔ _
      rw [hmem, or_iff_right (h.elsewhere hj)]
    · intro j hj other
      show (j, other) ∈ (i, name) :: reading ↔ _
      rw [List.mem_cons, or_iff_right (h.elsewhere hj)]
  · intro e he
    rcases (hmem e).mp he with rfl | he
    · exact h.numbered i (List.mem_cons_self ..)
    · exact h.known e he
  · intro e
    show e ∈ (i, name) :: s.sink.reached ↔ e ∈ opened
    rw [List.mem_cons, hmem, h.reached]
  · intro e he
    show e ∈ opened ∧ _
    rw [hmem]
    rcases List.mem_cons.mp he with rfl | he
    · exact ⟨.inl rfl, List.mem_cons_self ..⟩
    · exact ⟨.inr (h.reading e he).1, List.mem_cons_of_mem _ (h.reading e he).2⟩
  · rcases hopened with ⟨-, rfl, rfl⟩ | ⟨hkept, rfl, rfl⟩
    · exact h.tally
    · refine h.tally.opening fun hm => ?_
      -- it would be kept in the scope, or its template would be read
      rcases (hfirst name).mp hm with hm | hm
      · rw [hkept] at hm
        cases hm
      · exact hactive (h.reading _ hm).2

/-- **Behind an included template** its reader is kept. -/
theorem leave {inner : State (Ledger σ)}
    (h : Books job base ⟨0, i :: outer, (i, name) :: reading⟩ inner)
    (hscopes : inner.scopes = .caching readers :: rest) {active : List String}
    (hactive : ∀ e ∈ reading, resolveRelative job.template e.2 ∈ active) (r kept : Reader)
    (sections : List String) :
    Books job base ⟨0, i :: outer, reading⟩
      { inner with
        reader := r
        scopes := .caching (Fields.put name kept readers) :: rest
        sections := sections
        active := active } := by
  obtain ⟨hfirst, caches, rfl, houter⟩ := h.files hscopes
  refine { h with kept := ?_, reading := ?_ }
  · refine ⟨_ :: caches, rfl, .cons (hfirst.keep kept) ?_⟩
    refine files_congr houter (fun _ _ _ => .rfl) fun j hj other => ?_
    rw [List.mem_cons, or_iff_right (h.elsewhere hj)]
  · exact fun e he => ⟨(h.reading e (List.mem_cons_of_mem _ he)).1, hactive e he⟩

end Books

/-- A template is opened, with or without a ledger. -/
theorem reopen_none (resolved : String) (s : State (Ledger σ)) :
    (∃ e, Body.reopen resolved none s = (.error e, s) ∧
      Body.reopen resolved none s.forget = (.error e, s.forget)) ∨
    ∃ r s', Body.reopen resolved none s = (.ok r, s') ∧
      Body.reopen resolved none s.forget = (.ok r, s'.forget) ∧
      s' = { s with shelf := { s.shelf with opened := resolved :: s.shelf.opened } } := by
  have hopen : Body.reopen resolved none s = _ := openReader_apply .includeNotFound resolved s
  have hopen' : Body.reopen resolved none s.forget = _ :=
    openReader_apply .includeNotFound resolved s.forget
  rw [show s.forget.shelf = s.shelf from rfl] at hopen'
  rw [hopen, hopen']
  cases s.shelf.loader.openNamed resolved with
  | ok source => exact .inr ⟨_, _, rfl, rfl, rfl⟩
  | error e => exact .inl ⟨_, rfl, rfl⟩

namespace BodiesAccount

variable {b : Bool → Value → Run (Ledger σ) Exit} {c : Bool → Value → Run σ Exit}
  {p : Whereabouts} {v : Value}

/-- A template is written behind its opening, and its reader is kept. -/
theorem reading (B : BodiesAccount job base b c) {i : Nat} {outer : List Nat}
    {reading : List (Nat × String)} {name resolved : String} {r : Reader} {s : State (Ledger σ)}
    (h : Books job base ⟨0, i :: outer, (i, name) :: reading⟩ (s.enter resolved r))
    (hactive : ∀ e ∈ reading, resolveRelative job.template e.2 ∈ s.active) (muted : Bool)
    (v : Value) :
    Accounted job base ⟨0, i :: outer, reading⟩
      ((Body.inTemplate b resolved r muted v >>= keepReader name) s)
      ((Body.inTemplate c resolved r muted v >>= keepReader name) s.forget) := by
  have body := B _ muted v (.inl rfl) _ h
  rw [Run.bind_apply, Run.bind_apply, inTemplate_apply, inTemplate_apply,
    show s.forget.enter resolved r = (s.enter resolved r).forget from rfl]
  generalize b muted v (s.enter resolved r) = x at body
  generalize c muted v (s.enter resolved r).forget = y at body
  cases body with
  | failure h => exact .failure h
  | @answer exit inner h =>
    obtain ⟨caches, hscopes, hfiles⟩ := h.kept
    obtain ⟨readers, caches, -, -, rfl⟩ := List.forall₂_cons_left_iff.mp hfiles
    have hkeep := keepReader_caching (s := s.leave inner) hscopes name inner.reader
    have hkeep' := keepReader_caching (s := s.forget.leave inner.forget) hscopes name inner.reader
    dsimp only
    rw [hkeep, show (inner.forget).reader = inner.reader from rfl, hkeep']
    exact .answer (h.leave hscopes hactive s.reader inner.reader s.sections)

/-- The template of a marker is opened when no reader is kept for it, and written. -/
theorem opening (B : BodiesAccount job base b c) {i : Nat} {outer : List Nat}
    {reading : List (Nat × String)} {s : State (Ledger σ)}
    (h : Books job base ⟨0, i :: outer, reading⟩ s) {readers : List (String × Reader)}
    {rest : List Scope} (hscopes : s.scopes = .caching readers :: rest) {name : String}
    (hactive : resolveRelative job.template name ∉ s.active) (muted : Bool) (v : Value) :
    let resolved := resolveRelative job.template name
    let taken : State (Ledger σ) :=
      { s with
        sink := { s.sink with reached := (i, name) :: s.sink.reached }
        scopes := .caching (readers.filter (·.1 ≠ name)) :: rest }
    Accounted job base ⟨0, i :: outer, reading⟩
      ((Body.reopen resolved (Fields.get? name readers) >>= fun r =>
        Run.notice (.supplied name (Fields.get? name readers).isSome) >>= fun _ =>
          Body.inTemplate b resolved r muted v >>= keepReader name) taken)
      ((Body.reopen resolved (Fields.get? name readers) >>= fun r =>
        Body.inTemplate c resolved r muted v >>= keepReader name) taken.forget) := by
  intro resolved taken
  have hbefore : ∀ e ∈ reading, resolveRelative job.template e.2 ∈ s.active :=
    fun e he => (h.reading e he).2
  cases hkept : Fields.get? name readers with
  | some r =>
    have books := h.enter hscopes hactive (.inl ⟨by rw [hkept]; rfl, rfl, rfl⟩) r.reset
    exact B.reading (s := taken) books hbefore muted v
  | none =>
    have hscope : taken.sink.scope? = some i := Ledger.scope?_numbered h.inside
    have hnote : taken.sink.noteOpened name =
        { taken.sink with opened := (i, name) :: s.sink.opened } := by
      rw [Ledger.noteOpened, hscope]
      rfl
    rw [Run.bind_apply, Run.bind_apply]
    rcases reopen_none resolved taken with ⟨e, hopen, hopen'⟩ | ⟨r, s', hopen, hopen', rfl⟩
    · rw [hopen, hopen']
      exact .failure h.tally
    · rw [hopen, hopen']
      have books := h.enter hscopes hactive (.inr ⟨hkept, rfl, rfl⟩) r
      have reading := B.reading (s := { taken with
        sink := { taken.sink with opened := (i, name) :: s.sink.opened }
        shelf := { s.shelf with opened := resolved :: s.shelf.opened } }) books hbefore muted v
      rw [← hnote] at reading
      exact reading

/-- **A marker for an included template.**  It is reached in the innermost scope, unless that is a
body that is only scanned. -/
theorem included (B : BodiesAccount job base b c) (name : String) (muted : Bool) (v : Value) :
    Accounts job base p (Body.included b Body.reopen job name muted v)
      (Body.included c Body.reopen job name muted v) := by
  intro s hs
  obtain ⟨scanned, scopes, reading⟩ := p
  have hreached : s.told (.reaching name) = { s with sink := s.sink.reach name } := rfl
  rw [included_told, hreached, included_apply]
  obtain ⟨caches, hscopes, hfiles⟩ := hs.kept
  cases scanned with
  | succ n =>
    -- nothing is reached here
    have hsame : s.sink.reach name = s.sink := by
      rw [Ledger.reach, Ledger.scope?_scanned hs.inside]
      rfl
    have hdiscards : s.discards := by
      rw [State.discards, hscopes]
      rfl
    rw [if_pos hdiscards, hsame, if_pos (show s.forget.discards from hdiscards)]
    exact .answer hs
  | zero =>
    obtain ⟨i, outer, rfl⟩ := List.exists_cons_of_ne_nil hs.rooted
    obtain ⟨readers, caches, -, -, rfl⟩ := List.forall₂_cons_left_iff.mp hfiles
    have hdiscards : ¬s.discards := by
      rw [State.discards, hscopes]
      exact fun h => Bool.false_ne_true (Option.some.inj h)
    have hreach : s.sink.reach name = { s.sink with reached := (i, name) :: s.sink.reached } := by
      rw [Ledger.reach, Ledger.scope?_numbered hs.inside]
      rfl
    let reached : State (Ledger σ) :=
      { s with sink := { s.sink with reached := (i, name) :: s.sink.reached } }
    rw [if_neg hdiscards, hreach, if_neg (show ¬s.forget.discards from hdiscards),
      entering_told (takeReader_caching (s := reached) hscopes name),
      entering_apply (takeReader_caching (s := s.forget) hscopes name)]
    show Accounted job base _ (if resolveRelative job.template name ∈ s.active then _ else _)
      (if resolveRelative job.template name ∈ s.active then _ else _)
    by_cases hactive : resolveRelative job.template name ∈ s.active
    · rw [if_pos hactive, if_pos hactive]
      exact .failure (s := { reached with scopes := _ }) hs.tally
    · rw [if_neg hactive, if_neg hactive]
      exact B.opening hs hscopes hactive muted v

/-! ### Markers -/

variable [Sink σ]

/-- **One more marker**, by cases of the kinds of markers. -/
theorem step (B : BodiesAccount job base b c) :
    BodiesAccount job base (Body.step b Body.reopen job) (Body.step c Body.reopen job) := by
  intro p muted v hv
  refine Accounts.looks.step (Accounts.copies.copyText muted) (fun m => ?_) (B p muted v hv)
  refine Accounts.looks.obey ?_ (B.repeating hv m muted)
    (fun inverted => B.conditional hv m inverted muted) (B.included m.name muted v)
  exact Accounts.compositional.substitute Accounts.emit muted (Accounts.resolve v m.name)

/-- Whole bodies keep the ledger, by induction on the fuel. -/
theorem write (n : Nat) :
    BodiesAccount job base (Body.write job n : Bool → Value → Run (Ledger σ) Exit)
      (Body.write job n) := by
  induction n with
  | zero => exact fun _ _ _ _ => Accounts.compositional.halt .exhausted
  | succ n ih => exact ih.step

end BodiesAccount

/-! ## Whole renders -/

/-- Each name is opened as often as there are scopes in which it is reached. -/
theorem Books.opens_eq {p : Whereabouts} {s : State (Ledger σ)} (h : Books job base p s)
    (name : String) : s.sink.opens name = s.sink.scopesReaching name := by
  have hnodup : ((s.sink.opened.filter (·.2 = name)).map (·.1)).Nodup := by
    refine (h.tally.once.filter _).map_on fun e he e' he' heq => ?_
    have hname := of_decide_eq_true (List.mem_filter.mp he).2
    have hname' := of_decide_eq_true (List.mem_filter.mp he').2
    exact Prod.ext heq (hname.trans hname'.symm)
  have hperm : ((s.sink.opened.filter (·.2 = name)).map (·.1)).Perm
      ((s.sink.reached.filter (·.2 = name)).map (·.1)).dedup := by
    refine (List.perm_ext_iff_of_nodup hnodup (List.nodup_dedup _)).mpr fun i => ?_
    simp only [List.mem_dedup, List.mem_map, List.mem_filter, h.reached]
  rw [Ledger.opens, Ledger.scopesReaching, ← hperm.length_eq, List.length_map,
    List.countP_eq_length_filter]

/-- The loader has opened a resource for each time that the ledger tells. -/
theorem Tally.count_opened {l : Ledger σ} {names : List String} (h : Tally job base l.opened names)
    {name : String} (hname : resolveRelative job.template name ∉ job.textFiles) :
    names.count (resolveRelative job.template name) =
      base.count (resolveRelative job.template name) + l.opens name := by
  rw [h.shelf _ hname, List.count, List.countP_map, Ledger.opens]
  congr 1
  refine List.countP_congr fun e _ => ?_
  simp [(resolveRelative_injective job.template).eq_iff]

namespace Template

/-- The root is the first scope: nothing has been reached in it. -/
theorem books_root (t : Template) (o : RenderOptions) (start : Rendered σ) (source : Source) :
    Books (t.job o) (t.name :: start.shelf.opened) ⟨0, [0], []⟩
      ((t.started (start.withSink (Ledger.ofSink start.sink)) source).push (.caching [])) where
  inside := rfl
  kept := ⟨[[]], rfl, .cons (fun _ => ⟨nofun, fun h => h.elim nofun nofun⟩) .nil⟩
  rooted := List.cons_ne_nil _ _
  different := List.nodup_singleton _
  numbered := fun _ hi => List.mem_singleton.mp hi ▸ Nat.zero_lt_one
  known := nofun
  reached := fun _ => .rfl
  reading := nofun
  tally := ⟨.nil, fun _ _ => rfl⟩

variable [Sink σ]

/-- What a render comes to behind the opening of its template. -/
theorem behindOpening_accounted (t : Template) (o : RenderOptions) (v : Value) (start : Rendered σ)
    (source : Source) (fuel : Nat) :
    ∃ x s, behindOpening Body.write (t.job o) v fuel
        (t.started (start.withSink (Ledger.ofSink start.sink)) source) = (x, s) ∧
      behindOpening Body.write (t.job o) v fuel (t.started start source) = (x, s.forget) ∧
      Tally (t.job o) (t.name :: start.shelf.opened) s.sink.opened s.shelf.opened ∧
      (x = .ok () → ∀ name, s.sink.opens name = s.sink.scopesReaching name) := by
  let root := t.started (start.withSink (Ledger.ofSink start.sink)) source
  have body : Accounted (t.job o) (t.name :: start.shelf.opened) ⟨0, [0], []⟩
      (Body.write (t.job o) fuel false v (root.push (.caching [])))
      (Body.write (t.job o) fuel false v
        { t.started start source with scopes := .caching [] :: (t.started start source).scopes }) :=
    BodiesAccount.write fuel _ false v (.inl rfl) _ (t.books_root o start source)
  unfold behindOpening
  rw [Run.bind_apply, Run.bind_apply, Run.discard_apply, Run.discard_apply, inScope_told,
    inScope_apply]
  generalize (Body.write (t.job o) fuel false v : Run (Ledger σ) Exit) _ = y at body ⊢
  generalize (Body.write (t.job o) fuel false v : Run σ Exit) _ = z at body ⊢
  cases body with
  | failure h => exact ⟨_, _, rfl, rfl, h, nofun⟩
  | @answer exit s h =>
    let done : State (Ledger σ) := s.pop
    show ∃ x u, Run.checkSink false done = (x, u) ∧
      Run.checkSink false done.forget = (x, u.forget) ∧ _
    rw [checkSink_apply, checkSink_apply]
    show ∃ x u, _ ∧ (if !false && Sink.failed done.sink then _ else _) = _ ∧ _
    split
    · exact ⟨_, _, rfl, rfl, h.tally, nofun⟩
    · exact ⟨_, _, rfl, rfl, h.tally, fun _ => h.opens_eq⟩

/-- **Included templates are opened once in a scope.**  A render that keeps a ledger is the render.
No scope opens a template twice, and the loader has opened each included resource as often as the
ledger tells, however the render ends; what the loader opens besides are the template itself and the
files with its texts.  When the render succeeds, a name has been opened as often as there are scopes
in which a marker for it has been reached outside of bodies that are only scanned. -/
theorem write_opensOnce (t : Template) (o : RenderOptions) (v : Value) (start : Rendered σ) :
    let x := t.ledgered o v start
    t.write o v start = (x.1, x.2.withoutLedger) ∧ x.2.sink.opened.Nodup ∧
      (∀ name, resolveRelative t.name name ∉ t.name :: (t.job o).textFiles →
        x.2.shelf.opened.count (resolveRelative t.name name) =
          start.shelf.opened.count (resolveRelative t.name name) + x.2.sink.opens name) ∧
      (x.1 = .ok () → ∀ name, x.2.sink.opens name = x.2.sink.scopesReaching name) := by
  have nothing : (Ledger.ofSink start.sink).opened.Nodup ∧
      (∀ name, resolveRelative t.name name ∉ t.name :: (t.job o).textFiles →
        start.shelf.opened.count (resolveRelative t.name name) =
          start.shelf.opened.count (resolveRelative t.name name) +
            (Ledger.ofSink start.sink).opens name) :=
    ⟨.nil, fun _ _ => rfl⟩
  unfold ledgered write
  rw [writeBy_apply, writeBy_apply]
  by_cases hnull : v.isNull
  · rw [if_pos hnull, if_pos hnull]
    exact ⟨rfl, nothing.1, nothing.2, fun _ _ => rfl⟩
  · rw [if_neg hnull, if_neg hnull, writeDictionary_apply, writeDictionary_apply,
      show (start.withSink (Ledger.ofSink start.sink)).shelf = start.shelf from rfl]
    cases start.shelf.loader.openNamed t.name with
    | error e => exact ⟨rfl, nothing.1, nothing.2, nofun⟩
    | ok source =>
      obtain ⟨x, s, hledger, hplain, htally, hdone⟩ :=
        t.behindOpening_accounted o v.asDictionary start source (fuelFor start.shelf.loader)
      dsimp only
      rw [hledger, hplain]
      refine ⟨rfl, htally.once, fun name hname => ?_, hdone⟩
      rw [List.mem_cons, not_or] at hname
      have hcount := htally.count_opened hname.2
      rw [show (t.job o).template = t.name from rfl, List.count_cons_of_ne (Ne.symm hname.1)]
        at hcount
      exact hcount

/-- A row is included before, in and behind a section over two elements: it is opened in the root,
and once in the section. -/
example :
    let t : Template := ⟨"page", "text/plain", none, none⟩
    let start : Rendered String := ⟨"", ⟨[], []⟩, .ofLoader (.memory
      [("page", "{{>row}}\x7b\x7b#items\x7d\x7d{{>row}}{{/items}}{{>row}}"), ("row", "*")])⟩
    let v : Value := .record [("items", .list [.scalar (.text "a"), .scalar (.text "b")])]
    let l := (t.ledgered ⟨⟨.default, 0⟩, none, []⟩ v start).2.sink
    l.sink = "****" ∧ l.opened = [(1, "row"), (0, "row")] ∧ l.opens "row" = 2 ∧
      l.reached = [(0, "row"), (1, "row"), (1, "row"), (0, "row")] := by
  decide +kernel

end Template

end Stencil
