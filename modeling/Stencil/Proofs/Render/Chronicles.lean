import Stencil.Proofs.Render.Orderly
import Stencil.Proofs.Render.Streaming

/-!
# The chronicle of a render

A render that keeps a chronicle is the render, its chronicle is orderly, and its entries do to the
sink and to the single-pass sequences what the render does.  Each part of a render adds such entries
behind those that are there, and ends inside of the iterations in which it has begun.

- `Chronicles`: a computation with and without the chronicle; `Chronicles.bind` is the rule for one
  after the other, and `Chronicles.of_aloof` for what has nothing to do with sinks and sequences;
- `Chronicles.emit`, `Chronicles.pull`, `Chronicles.holds`: single entries, and what follows them;
- `Chronicles.sequence`: **a section over a sequence**, which is closed however the section ends;
- `Chronicles.write`: whole bodies;
- `Template.write_closesEach`: **every sequence that a section reaches is closed once.**
-/

namespace Stencil

open Body

variable {σ α β : Type}

/-! ## Computations that fail -/

/-- The computation fails, whatever the state. -/
def NeverAnswers (c : Run σ α) : Prop := ∀ s, ∃ h, (c s).1 = .error h

theorem NeverAnswers.throw (h : Halt) : NeverAnswers (throw h : Run σ α) := fun _ => ⟨h, rfl⟩

theorem NeverAnswers.bind {c : Run σ α} (h : NeverAnswers c) (k : α → Run σ β) :
    NeverAnswers (c >>= k) := by
  intro s
  obtain ⟨e, he⟩ := h s
  rw [Run.bind_apply]
  generalize c s = x at he
  obtain ⟨answer, s'⟩ := x
  obtain rfl : answer = .error e := he
  exact ⟨e, rfl⟩

theorem NeverAnswers.behind (c : Run σ α) {k : α → Run σ β} (h : ∀ a, NeverAnswers (k a)) :
    NeverAnswers (c >>= k) := by
  intro s
  rw [Run.bind_apply]
  obtain ⟨answer, s'⟩ := c s
  cases answer with
  | error e => exact ⟨e, rfl⟩
  | ok a => exact h a s'

variable [Sink σ] {around : Option Iteration}

/-! ## The innermost iteration -/

section

omit [Sink σ]

theorem Chronicle.pull_inside {i : Iteration} (j : Chronicle σ) (h : j.inside.head? = some i)
    (failure : Option DataError) : j.pull failure = j.note (.pulled i failure) := by
  unfold pull
  cases hinside : j.inside with
  | nil =>
    rw [hinside] at h
    cases h
  | cons k outer =>
    rw [hinside] at h
    obtain rfl : k = i := Option.some.inj h
    rfl

/-- The state behind asking a sequence for its next element. -/
def State.pulled (s : State (Chronicle σ)) (i : Iteration) (failure : Option DataError) :
    State (Chronicle σ) :=
  { s with sink := s.sink.note (.pulled i failure), streams := i.origin.next s.streams }

theorem Body.Elements.closing_eq (e : Elements) : e.closing = e.origin.close := by
  cases e <;> rfl

/-- The sequence of the innermost iteration is closed. -/
theorem State.closed_apply {i : Iteration} {outer : List Iteration} (s : State (Chronicle σ))
    (h : s.sink.inside = i :: outer) (e : Elements) (written : Except Halt Unit) :
    e.shut written s =
      { s with
        sink := { s.sink.note (.closed i written (e.closing s.streams).1) with inside := outer }
        streams := (e.closing s.streams).2 } := by
  obtain ⟨⟨sink, next, inside, entries⟩, _, _, _, _, _, _, _⟩ := s
  obtain rfl : inside = i :: outer := h
  rfl

end

/-! ## With and without the chronicle -/

/-- What a computation adds to the chronicle: orderly entries that do what it does, and come to what
it comes to. -/
def Noted (around : Option Iteration) (s s' : State (Chronicle σ)) (r : Except Halt Unit) : Prop :=
  s'.sink.inside = s.sink.inside ∧ ∃ es, s'.sink.entries = s.sink.entries ++ es ∧
    Orderly around s.sink.next es s'.sink.next r ∧
      LeadsTo es (s.sink.sink, s.streams) (s'.sink.sink, s'.streams)

theorem map_unit (x : Except Halt Unit) : (x.map fun _ => ()) = x := by cases x <;> rfl

/-- The same computation with and without the chronicle, directly inside of an iteration if there is
one. -/
def Chronicles (around : Option Iteration) (c : Run (Chronicle σ) α) (d : Run σ α) : Prop :=
  ∀ s : State (Chronicle σ), s.sink.inside.head? = around →
    d s.unchronicled = ((c s).1, (c s).2.unchronicled) ∧
      Noted around s (c s).2 ((c s).1.map fun _ => ())

/-- Nothing is added, and nothing has happened. -/
theorem Noted.nothing {s s' : State (Chronicle σ)} (hsink : s'.sink = s.sink)
    (hstreams : s'.streams = s.streams) (x : Except Halt α) :
    Noted around s s' (x.map fun _ => ()) := by
  refine ⟨by rw [hsink], [], by rw [hsink, List.append_nil], ?_, ?_⟩
  · rw [hsink]
    exact .nothing
  · rw [hsink, hstreams]
    rfl

/-- What is added in one part, and then in the next one. -/
theorem Noted.trans {s s' s'' : State (Chronicle σ)} {r : Except Halt Unit}
    (h : Noted around s s' (.ok ())) (h' : Noted around s' s'' r) : Noted around s s'' r := by
  obtain ⟨hinside, es, hentries, horderly, hleads⟩ := h
  obtain ⟨hinside', fs, hentries', horderly', hleads'⟩ := h'
  refine ⟨hinside'.trans hinside, es ++ fs, ?_, horderly.append horderly', hleads.append hleads'⟩
  rw [hentries', hentries, List.append_assoc]

namespace Chronicles

theorem of_aloof {c : Run (Chronicle σ) α} {d : Run σ α} (h : Aloof c d) : Chronicles around c d := by
  intro s _
  obtain ⟨hd, hsink, hstreams⟩ := h s s.sink.sink s.streams
  refine ⟨?_, .nothing hsink hstreams _⟩
  rw [State.unchronicled, State.withSink, hd, State.unchronicled, State.withSink, hsink, hstreams]

/-- One computation behind the other. -/
theorem bind {c : Run (Chronicle σ) α} {d : Run σ α} {k : α → Run (Chronicle σ) β} {l : α → Run σ β}
    (h : Chronicles around c d) (hk : ∀ a, Chronicles around (k a) (l a)) :
    Chronicles around (c >>= k) (d >>= l) := by
  intro s hs
  obtain ⟨hd, hnoted⟩ := h s hs
  rw [Run.bind_apply, Run.bind_apply, hd]
  generalize c s = x at hnoted
  obtain ⟨answer, s'⟩ := x
  cases answer with
  | error e => exact ⟨rfl, hnoted⟩
  | ok a =>
    obtain ⟨hl, hnoted'⟩ := hk a s' ((congrArg List.head? hnoted.1).trans hs)
    exact ⟨hl, hnoted.trans hnoted'⟩

/-- Looking at the state. -/
theorem look {k : State (Chronicle σ) → Run (Chronicle σ) β} {l : State σ → Run σ β}
    (h : ∀ s, Chronicles around (k s) (l s.unchronicled)) :
    Chronicles around (get >>= k) (get >>= l) := fun s hs => h s s hs

/-- Of some occasions the chronicle tells nothing. -/
theorem untold {o : Occasion} (h : ∀ j : Chronicle σ, Observer.notice o j = j) :
    Chronicles around (Run.notice o : Run (Chronicle σ) Unit) (Run.notice o) := by
  intro s _
  have hsame : s.told o = s := by rw [State.told, h]
  show _ = (Except.ok (), (s.told o).unchronicled) ∧ Noted around s (s.told o) _
  rw [hsame]
  exact ⟨rfl, .nothing rfl rfl _⟩

theorem inScope {c : Run (Chronicle σ) α} {d : Run σ α} (h : Chronicles around c d) (scope : Scope) :
    Chronicles around (Run.inScope scope c) (Run.inScope scope d) := by
  refine (untold fun _ => rfl).bind fun _ => ?_
  refine (of_aloof fun _ _ _ => ⟨rfl, rfl, rfl⟩).bind fun _ => h.bind fun a => ?_
  refine (of_aloof fun _ _ _ => ⟨rfl, rfl, rfl⟩).bind fun _ => ?_
  exact (untold fun _ => rfl).bind fun _ => of_aloof (.pure a)

theorem inSection {c : Run (Chronicle σ) α} {d : Run σ α} (h : Chronicles around c d) (name : String) :
    Chronicles around (Run.inSection name c) (Run.inSection name d) := by
  refine (of_aloof fun _ _ _ => ⟨rfl, rfl, rfl⟩).bind fun _ => h.bind fun a => ?_
  exact (of_aloof fun _ _ _ => ⟨rfl, rfl, rfl⟩).bind fun _ => of_aloof (.pure a)

/-! ## Writing -/

theorem emit (muted : Bool) (text : String) :
    Chronicles around (Run.emit muted text : Run (Chronicle σ) Unit) (Run.emit muted text) := by
  cases muted with
  | true => exact of_aloof (.pure ())
  | false => exact fun s _ => ⟨rfl, rfl, [.wrote text], rfl, .wrote text .done, trivial, rfl⟩

theorem compositional :
    Compositional fun _ (c : Run (Chronicle σ) _) d => ∀ around, Chronicles around c d where
  answer a := fun _ => of_aloof (.pure a)
  halt _ := fun _ => of_aloof fun _ _ _ => ⟨rfl, rfl, rfl⟩
  bind h hk := fun around => (h around).bind fun a => hk a around

theorem copies :
    Compositional.Copies fun _ (c : Run (Chronicle σ) _) d => ∀ around, Chronicles around c d where
  toCompositional := compositional
  readChar := fun _ => of_aloof .readChar
  readMarker := fun _ => of_aloof .readMarker
  checkSink muted := by
    intro around s _
    rw [checkSink_apply, checkSink_apply]
    show (if !muted && Sink.failed s.sink then _ else _) = _ ∧ _
    split <;> exact ⟨rfl, .nothing rfl rfl _⟩
  emit muted text := fun _ => emit muted text

/-! ## Asking sequences -/

theorem bound (elements : Elements) :
    Chronicles around (elements.bound : Run (Chronicle σ) Nat) (elements.bound) := by
  cases elements with
  | list items => exact of_aloof (.pure _)
  | stream id =>
    intro s _
    exact ⟨rfl, .nothing rfl rfl ((Elements.stream id).bound s).1⟩

/-- A test asks a single-pass sequence whether it has an element; the chronicle tells that first. -/
theorem nonempty (elements : Elements) :
    Chronicles around
      (Run.notice (.testing elements) >>= fun _ => elements.nonempty : Run (Chronicle σ) _)
      (Run.notice (.testing elements) >>= fun _ => elements.nonempty) := by
  cases elements with
  | list items => exact (untold fun _ => rfl).bind fun _ => of_aloof (.pure _)
  | stream id => exact fun s _ => ⟨rfl, rfl, [.asked id], rfl, .asked id .done, trivial, rfl⟩

theorem holds (found : Option Value) :
    Chronicles around (Body.holds found : Run (Chronicle σ) Bool) (Body.holds found) := by
  unfold Body.holds
  split
  · exact of_aloof (.pure _)
  · exact of_aloof (.pure _)
  · exact of_aloof (.pure _)
  · split
    · exact (nonempty _).bind fun answer => of_aloof (.answered answer)
    · exact of_aloof (.pure _)

omit [Sink σ] in
/-- Asking for the next element, with and without the chronicle.  What is left behind an element has
the same origin. -/
theorem pull_apply {i : Iteration} {elements : Elements} (h : elements.origin = i.origin)
    {s : State (Chronicle σ)} (hs : s.sink.inside.head? = some i) :
    ∃ following rest, (∀ v, following = some (.ok v) → rest.origin = i.origin) ∧
      i.origin.Fails (Entry.failure? following) s.streams ∧
      Body.pull elements s = (.ok (following, rest), s.pulled i (Entry.failure? following)) ∧
      Body.pull elements s.unchronicled =
        (.ok (following, rest), (s.pulled i (Entry.failure? following)).unchronicled) := by
  obtain ⟨number, origin⟩ := i
  obtain rfl : elements.origin = origin := h
  have hpull (failure : Option DataError) := s.sink.pull_inside hs failure
  rw [pull_silent]
  cases elements with
  | list items =>
    cases items with
    | nil =>
      refine ⟨none, .list [], nofun, nofun, ?_, rfl⟩
      rw [State.pulled, ← hpull]
      rfl
    | cons first rest =>
      refine ⟨some first, .list rest, ?_, ?_, ?_, rfl⟩
      · rintro v ⟨⟩
        rfl
      · intro e he
        obtain rfl : first = .error e := Option.some.inj (Entry.failure?_eq_some he)
        rfl
      · rw [State.pulled, ← hpull]
        rfl
  | stream id =>
    refine ⟨_, .stream id, fun _ _ => rfl, fun e => ?_, ?_, Table.next_stream_apply id _⟩
    · have failing (answer : Except DataError (Option Row)) :
          Entry.failure? (Table.nextElement answer) = some e ↔ answer = .error e := by
        rcases answer with e' | row | row <;> simp [Table.nextElement, Entry.failure?]
      exact failing _
    · rw [State.pulled, ← hpull]
      show (Elements.next (.stream id) >>= _) s = _
      rw [Run.bind_apply, Table.next_stream_apply]
      rfl

/-- The sequence of a section is asked for its next element.  What follows a failure of the sequence
has to fail as well. -/
theorem pull {i : Iteration} {elements : Elements} (h : elements.origin = i.origin)
    {k : Option (Except DataError Value) × Elements → Run (Chronicle σ) β}
    {l : Option (Except DataError Value) × Elements → Run σ β}
    (hk : ∀ following rest, (∀ v, following = some (.ok v) → rest.origin = i.origin) →
      Chronicles (some i) (k (following, rest)) (l (following, rest)))
    (hfails : ∀ e rest, NeverAnswers (k (some (.error e), rest))) :
    Chronicles (some i) (Body.pull elements >>= k) (Body.pull elements >>= l) := by
  intro s hs
  obtain ⟨following, rest, hrest, hfailure, hnext, hplain⟩ := pull_apply h hs
  let s' := s.pulled i (Entry.failure? following)
  obtain ⟨hl, hinside, es, hentries, horderly, hleads⟩ := hk following rest hrest s' hs
  rw [Run.bind_apply, Run.bind_apply, hnext, hplain]
  refine ⟨hl, hinside, .pulled i (Entry.failure? following) :: es, ?_, ?_, hfailure, hleads⟩
  · exact hentries.trans (List.append_assoc ..)
  · refine .pulled _ horderly fun e he => ?_
    obtain rfl : following = some (.error e) := Entry.failure?_eq_some he
    obtain ⟨h, hh⟩ := hfails e rest s'
    exact ⟨h, by rw [hh]; rfl⟩

/-! ## Bodies -/

variable {b : Bool → Value → Run (Chronicle σ) Exit} {c : Bool → Value → Run σ Exit}

/-- Nothing is written for an element that the sequence has failed to give. -/
theorem neverAnswers_each (b : Bool → Value → Run (Chronicle σ) Exit) (name : String)
    (separator : Option String) (muted : Bool) (fuel : Nat) (first : Bool) (e : DataError)
    (rest : Elements) :
    NeverAnswers (Body.each b name separator muted fuel first (.error e) rest) := by
  cases fuel with
  | zero => exact .throw _
  | succ fuel => exact (NeverAnswers.throw _).bind _

theorem sections :
    Compositional.Sections fun _ (c : Run (Chronicle σ) _) d => ∀ around, Chronicles around c d where
  toCompositional := compositional
  scanning h := fun around => (h around).inScope _
  inSection name h := fun around => (h around).inSection name
  holds found := fun _ => holds found

section

variable (B : ∀ name muted v around,
  Chronicles around (Body.closed b name muted v) (Body.closed c name muted v))

include B

/-- The loop over the elements, by induction on its fuel: the sequence stays the same. -/
theorem each {i : Iteration} (name : String) (separator : Option String) (muted : Bool)
    (fuel : Nat) :
    ∀ (first : Bool) (element : Except DataError Value) {rest : Elements},
      (∀ v, element = .ok v → rest.origin = i.origin) →
        Chronicles (some i) (Body.each b name separator muted fuel first element rest)
          (Body.each c name separator muted fuel first element rest) := by
  induction fuel with
  | zero => exact fun _ _ _ _ => of_aloof .exhausted
  | succ fuel ih =>
    intro first element rest hrest
    unfold Body.each
    cases element with
    | error e => exact of_aloof (.fail _)
    | ok v =>
    refine (of_aloof (.pure v)).bind fun v => pull (hrest _ rfl) (fun following rest hrest => ?_) ?_
    · have separated : Chronicles (some i)
          (Body.separate separator first muted : Run (Chronicle σ) Unit) _ :=
        copies.separate copies.emit separator first muted _
      refine (of_aloof (.markIf _)).bind fun _ => separated.bind fun _ => ?_
      refine (B name muted _ _).bind fun _ => ?_
      cases following with
      | none => exact of_aloof (.pure ())
      | some element =>
        exact (of_aloof .rewind).bind fun _ => ih false element fun v h => hrest v (congrArg some h)
    · -- the body for this element comes before the failure to give another one
      intro e rest
      refine .behind _ fun _ => .behind _ fun _ => .behind _ fun _ => .behind _ fun _ => ?_
      exact neverAnswers_each b name separator muted fuel false e rest

theorem iterated {i : Iteration} (name : String) (separator : Option String) (muted : Bool)
    {elements : Elements} (h : elements.origin = i.origin) :
    Chronicles (some i) (Body.iterated b name separator muted elements)
      (Body.iterated c name separator muted elements) := by
  refine (bound elements).bind fun fuel => pull h (fun first rest hrest => ?_) fun e rest => ?_
  · cases first with
    | none => exact sections.scan B name _
    | some element =>
      have body := each B name separator muted fuel true element fun v h => hrest v (congrArg some h)
      exact body.inScope _
  · refine .behind _ fun _ => .behind _ fun _ => ?_
    exact (neverAnswers_each b name separator muted fuel true e rest).bind _

/-- **A section over a sequence**: it reaches the sequence, does what it does for the elements, and
closes the sequence, whatever it has come to. -/
theorem sequence (name : String) (separator : Option String) (muted : Bool) (elements : Elements) :
    Chronicles around (Body.sequence b name separator muted elements)
      (Body.sequence c name separator muted elements) := by
  intro s _
  let i : Iteration := ⟨s.sink.next, elements.origin⟩
  have horigin : elements.origin = i.origin := rfl
  let reached := s.told (.reached elements)
  obtain ⟨hd, hinside, es, hentries, horderly, hleads⟩ :=
    iterated B name separator muted horigin reached rfl
  rw [sequence_told, sequence_told, show s.unchronicled.told (.reached elements) =
    reached.unchronicled from rfl, hd]
  dsimp only
  generalize Body.iterated b name separator muted elements reached = x at *
  obtain ⟨written, s'⟩ := x
  dsimp only at hinside hentries horderly hleads ⊢
  rw [map_unit] at horderly
  have hclosed := s'.closed_apply hinside elements written
  rw [hclosed]
  refine ⟨?_, rfl, .reached i :: (es ++ [.closed i written (elements.closing s'.streams).1]),
    ?_, ?_, trivial, ?_⟩
  · rfl
  · show s'.sink.entries ++ _ = _
    rw [hentries]
    exact (List.append_assoc ..).trans (List.append_assoc ..)
  · rw [map_unit]
    exact .iterated horderly .nothing fun h hending => ⟨rfl, hending⟩
  · refine hleads.append ⟨?_, ?_⟩
    · exact congrArg Prod.fst (congrFun elements.closing_eq _)
    · exact congrArg (s'.sink.sink, ·) (congrArg Prod.snd (congrFun elements.closing_eq _))

end

theorem templates :
    Compositional.Templates fun _ (c : Run (Chronicle σ) _) d => ∀ around, Chronicles around c d where
  toCompositional := compositional
  look h := fun around => look fun s => h s s.unchronicled ⟨rfl, rfl, rfl, rfl⟩ around
  reaching _ := fun _ => untold fun _ => rfl
  supplied _ _ := fun _ => untold fun _ => rfl
  takeReader name := fun _ => of_aloof (.takeReader name)
  keepReader name r := fun _ => of_aloof (.keepReader name r)
  inTemplate {b c muted v} resolved r h := by
    intro around s hs
    obtain ⟨hd, hnoted⟩ := h around (s.enter resolved r) hs
    rw [inTemplate_apply, inTemplate_apply,
      show s.unchronicled.enter resolved r = (s.enter resolved r).unchronicled from rfl, hd]
    generalize b muted v (s.enter resolved r) = x at hnoted
    obtain ⟨answer, inner⟩ := x
    cases answer <;> exact ⟨rfl, hnoted⟩

theorem reopen (resolved : String) (kept : Option Reader) :
    Chronicles around (Body.reopen resolved kept : Run (Chronicle σ) Reader)
      (Body.reopen resolved kept) := by
  cases kept with
  | some r => exact of_aloof (.pure _)
  | none => exact (untold fun _ => rfl).bind fun _ => of_aloof (.openReader _ _)

/-- Whole bodies keep the chronicle. -/
theorem write (job : Job) (n : Nat) (muted : Bool) (v : Value) :
    ∀ around, Chronicles around (Body.write job n muted v : Run (Chronicle σ) Exit)
      (Body.write job n muted v) := by
  have resolve (v : Value) (name : String) :
      ∀ around, Chronicles around (Body.resolve job v name : Run (Chronicle σ) _)
        (Body.resolve job v name) :=
    compositional.resolve (fun _ => untold fun _ => rfl) (fun _ => of_aloof (.texts job)) v name
  refine templates.write sections rfl copies.copyText ?_ ?_ ?_ n muted v
  · exact fun muted v m => compositional.substitute copies.emit muted (resolve v m.name)
  · exact fun B name separator muted e _ =>
      sequence (compositional.closed B) name separator muted e
  · exact fun resolved kept _ => reopen resolved kept

end Chronicles

/-! ## Whole renders -/

namespace Template

/-- A render behind the opening of its template. -/
theorem chronicles_behindOpening (job : Job) (v : Value) (fuel : Nat) :
    Chronicles none (behindOpening Body.write job v fuel : Run (Chronicle σ) Unit)
      (behindOpening Body.write job v fuel) := by
  refine .bind ?_ fun _ => Chronicles.copies.checkSink false none
  exact ((Chronicles.write job fuel false v none).inScope _).bind fun _ => .of_aloof (.pure ())

/-- **Every sequence that a section reaches is closed once**, on every path.  A render that keeps a
chronicle is the render, and the entries are all that it does with its sink and with single-pass
sequences.  Each repeating section that reaches a sequence closes it behind all that it asks of it,
behind its complete output and behind the sections inside, however the render ends; a failure of the
section, and so of its sequence, comes before one of closing, and behind either nothing happens any
more but that the sequences of the sections around are closed. -/
theorem write_closesEach (t : Template) (o : RenderOptions) (v : Value) (start : Rendered σ) :
    let x := t.chronicled o v start
    t.write o v start = (x.1, x.2.withoutChronicle) ∧
      LeadsTo x.2.sink.entries (start.sink, start.streams) (x.2.sink.sink, x.2.streams) ∧
        ClosesEach x.2.sink.entries x.1 := by
  have nothing (r : Except Halt Unit) : ClosesEach [] r := by constructor <;> simp
  unfold chronicled write
  rw [writeBy_apply, writeBy_apply]
  by_cases hnull : v.isNull
  · rw [if_pos hnull, if_pos hnull]
    exact ⟨rfl, rfl, nothing _⟩
  · rw [if_neg hnull, if_neg hnull, writeDictionary_apply, writeDictionary_apply,
      show (start.withSink (Chronicle.ofSink start.sink)).shelf = start.shelf from rfl]
    cases start.shelf.loader.openNamed t.name with
    | error e => exact ⟨rfl, rfl, nothing _⟩
    | ok source =>
      obtain ⟨hplain, hnoted⟩ :=
        chronicles_behindOpening (t.job o) v.asDictionary (fuelFor start.shelf.loader)
          (t.started (start.withSink (Chronicle.ofSink start.sink)) source) rfl
      rw [show (t.started (start.withSink (Chronicle.ofSink start.sink)) source).unchronicled =
        t.started start source from rfl] at hplain
      dsimp only
      rw [hplain]
      generalize (behindOpening Body.write (t.job o) v.asDictionary _ :
        Run (Chronicle σ) Unit) _ = y at hnoted ⊢
      obtain ⟨r, s⟩ := y
      obtain ⟨-, es, hentries, horderly, hleads⟩ := hnoted
      rw [map_unit] at horderly
      obtain rfl : s.sink.entries = es := hentries
      exact ⟨rfl, hleads, horderly.closesEach fun _ h => absurd h (Option.some_ne_none _).symm⟩

/-- The cursor of a section over one row cannot be closed: what stands behind the section is not
written. -/
example :
    let t : Template := ⟨"page", "text/plain", none, none⟩
    let rows : Cursor := { Cursor.ofRows ["id"] [[some (.text "a")]] with
      closing := .error (.source "gone") }
    let start : Rendered String := ⟨"", ⟨[.rows (.ofCursor rows [])], []⟩, .ofLoader (.memory
      [("page", "\x7b\x7b#rows\x7d\x7d{{id}}{{/rows}}!")])⟩
    let x := t.chronicled ⟨⟨.default, 0⟩, none, []⟩ (.record [("rows", .stream 0)]) start
    let i : Iteration := ⟨0, .stream 0⟩
    let e : DataError := .close "cursor" "data source error: gone"
    x.1 = .error (.failed (.source e)) ∧ x.2.sink.entries =
      [.reached i, .pulled i none, .pulled i none, .wrote "a", .closed i (.ok ()) (.error e)] := by
  decide +kernel

end Template

end Stencil
