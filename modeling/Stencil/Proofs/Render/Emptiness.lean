import Stencil.Proofs.Render.Tested

/-!
# Sections agree about emptiness

A repeating section asks its sequence for the first element.  A conditional and an inverted section
ask whether there is one, and a single-pass sequence has to read ahead to know.  For a value that is
absent, null or a sequence the three come to the same, unless there is a failure in the place of the
first element.  A single-pass sequence then cannot tell whether there is an element.  A sequence
whose elements are at hand can: something is there, though a repeating section fails at it.

- `Body.dictionaries_repeating`, `Body.dictionaries_conditional`: when a section renders its body;
- `Body.repeating_first_failing`, `Body.conditional_error`: sections that fail in front of their
  bodies;
- `Body.SectionsAgree`, `Body.SectionsFail`, `Body.SectionsDiffer`: what the three sections come to;
- `Body.sections_agree`: **sections agree about emptiness**, unless the first element is a failure.
-/

namespace Stencil

namespace Body

variable {σ : Type} {s t : State σ} {found : Option Value} {more : Bool}

/-! ## What sections render -/

section

variable {b : Bool → Value → Run σ Exit}

theorem dictionaries_closed (b : Bool → Value → Run σ Exit) (name : String) (muted : Bool)
    (v : Value) (s : State (Visits σ)) :
    (closed (Visits.noting b) name muted v s).2.sink.dictionaries =
      Visits.put muted v s.sink.dictionaries := by
  unfold closed
  rw [Run.bind_apply, Visits.noting]
  generalize b muted v s.unlisted = x
  obtain ⟨answer, inner⟩ := x
  cases answer with
  | error e => rfl
  | ok exit => cases exit <;> rfl

theorem sink_inSection {α : Type} (name : String) (c : Run σ α) (s : State σ) :
    (Run.inSection name c s).2.sink = (c { s with sections := name :: s.sections }).2.sink := by
  rw [inSection_apply]
  generalize c { s with sections := name :: s.sections } = x
  obtain ⟨answer, s'⟩ := x
  cases answer <;> rfl

theorem dictionaries_scan (b : Bool → Value → Run σ Exit) (name : String) (s : State (Visits σ)) :
    (scan (Visits.noting b) name s).2.sink.dictionaries = s.sink.dictionaries := by
  have inner := dictionaries_closed b name true (.own .null)
    { s with scopes := .discarding :: s.scopes }
  unfold scan
  rw [inScope_apply]
  generalize closed (Visits.noting b) name true (.own .null) _ = x at inner
  obtain ⟨answer, s'⟩ := x
  cases answer <;> exact inner

/-- A conditional section renders its body exactly when the test holds, and an inverted one exactly
when it does not. -/
theorem dictionaries_conditional (b : Bool → Value → Run σ Exit) {v : Value} {m : Marker}
    {s t : State (Visits σ)} (h : Sectional (v.lookup (pathOf m.name)))
    (hs : holds (v.lookup (pathOf m.name)) s = (.ok more, t)) (hempty : s.sink.dictionaries = [])
    (inverted : Bool) :
    (conditional (Visits.noting b) m inverted false v s).2.sink.dictionaries ≠ [] ↔
      more ≠ inverted := by
  have inner := (consults_holds _).inside hs m.name
  have hempty' : t.sink.dictionaries = [] := by
    rw [(consults_holds _).sink hs, hempty]
  unfold conditional
  dsimp only
  rw [sink_inSection, Run.bind_apply, inner]
  cases more with
  | false =>
    cases inverted with
    | false =>
      dsimp only
      rw [dictionaries_scan, hempty']
      simp
    | true =>
      dsimp only
      rw [dictionaries_closed]
      simp [Visits.put]
  | true =>
    -- only a sequence can hold
    obtain ⟨value, hvalue⟩ : ∃ value, v.lookup (pathOf m.name) = some value := by
      rcases holds_ok h hs with ⟨-, hmore, -⟩ | ⟨e, he, -⟩
      · cases hmore
      · obtain ⟨value, hvalue, -⟩ := Option.bind_eq_some_iff.mp he
        exact ⟨value, hvalue⟩
    rw [hvalue]
    cases inverted with
    | false =>
      dsimp only
      rw [dictionaries_closed]
      simp [Visits.put]
    | true =>
      dsimp only
      rw [dictionaries_scan, hempty']
      simp

variable [Sink σ]

theorem sink_sequence (b : Bool → Value → Run σ Exit) (name : String) (separator : Option String)
    (muted : Bool) (e : Elements) (s : State σ) :
    (sequence b name separator muted e s).2.sink =
      (iterated b name separator muted e s).2.sink := by
  rw [sequence_apply]
  generalize iterated b name separator muted e s = x
  obtain ⟨answer, s'⟩ := x
  cases answer <;> rfl

/-- The first element of a sequence is rendered, whatever comes behind it. -/
theorem dictionaries_each (b : Bool → Value → Run σ Exit) (name : String)
    (separator : Option String) (fuel : Nat) (v : Value) (rest : Elements) (s : State (Visits σ)) :
    v.asDictionary :: s.sink.dictionaries <:+
      (each (Visits.noting b) name separator false (fuel + 1) true (.ok v) rest
        s).2.sink.dictionaries := by
  obtain ⟨following, rest', s₁, hnext⟩ := next_answers rest s
  have hsink : s₁.sink = s.sink := (consults_next rest).sink hnext
  obtain ⟨s₂, hmark, hsink₂⟩ :
      ∃ s₂, markIf following.isSome s₁ = (.ok (), s₂) ∧ s₂.sink = s₁.sink := by
    cases following <;> exact ⟨_, rfl, rfl⟩
  have hclosed := dictionaries_closed b name false v.asDictionary s₂
  rw [hsink₂, hsink] at hclosed
  unfold each
  simp only [pull_silent]
  rw [show Run.answered (.ok v) = (pure v : Run (Visits σ) Value) from rfl, pure_bind,
    Run.bind_apply, hnext]
  dsimp only
  rw [Run.bind_apply, hmark]
  dsimp only
  rw [show separate separator true false = (pure () : Run (Visits σ) Unit) from rfl, pure_bind,
    Run.bind_apply]
  generalize closed (Visits.noting b) name false v.asDictionary s₂ = x at hclosed
  obtain ⟨answer, s₃⟩ := x
  have rendered : v.asDictionary :: s.sink.dictionaries <:+ s₃.sink.dictionaries :=
    hclosed ▸ List.suffix_refl _
  cases answer with
  | error e => exact rendered
  | ok _ =>
    cases following with
    | none => exact rendered
    | some element =>
      -- the elements behind the first take nothing off the list
      have later := Notes.loops.each (Notes.compositional.closed (Notes.noting b))
        (Notes.loops.separate Notes.emit separator) name false fuel false element rest'
      exact rendered.trans (later { s₃ with reader := s₃.reader.reset }).2

/-- A section over elements renders its body exactly when there is a first one. -/
theorem dictionaries_iterated (b : Bool → Value → Run σ Exit) (name : String)
    (separator : Option String) {e rest : Elements} (first : Option Value) {s t : State (Visits σ)}
    (hnext : e.next s = (.ok (first.map Except.ok, rest), t)) (hs : s.sink.dictionaries = []) :
    (iterated (Visits.noting b) name separator false e s).2.sink.dictionaries ≠ [] ↔
      first.isSome := by
  obtain ⟨fuel, hbound, hleft⟩ := bound_spec e s
  have hsink : t.sink = s.sink := (consults_next e).sink hnext
  unfold iterated
  simp only [pull_silent]
  rw [Run.bind_apply, hbound]
  dsimp only
  rw [Run.bind_apply, hnext]
  cases first with
  | none =>
    dsimp only [Option.map]
    rw [dictionaries_scan, hsink, hs]
    simp
  | some v =>
    obtain ⟨fuel, rfl⟩ : ∃ n, fuel = n + 1 := ⟨fuel - 1, by omega⟩
    have hfirst := dictionaries_each b name separator fuel v rest
      { t with scopes := .caching [] :: t.scopes }
    dsimp only [Option.map]
    rw [inScope_apply]
    generalize each (Visits.noting b) name separator false (fuel + 1) true (.ok v) rest
      { t with scopes := .caching [] :: t.scopes } = x at hfirst
    obtain ⟨answer, u⟩ := x
    have rendered : u.sink.dictionaries ≠ [] := by
      intro hnil
      rw [hnil] at hfirst
      exact absurd (List.suffix_nil.mp hfirst) (List.cons_ne_nil _ _)
    cases answer <;> simpa using rendered

/-- A repeating section renders its body exactly when the test holds. -/
theorem dictionaries_repeating (b : Bool → Value → Run σ Exit) {v : Value} {m : Marker}
    {s t : State (Visits σ)} (h : Sectional (v.lookup (pathOf m.name)))
    (hs : holds (v.lookup (pathOf m.name)) s = (.ok more, t))
    (hfirst : ∀ err, first? (v.lookup (pathOf m.name)) s ≠ some (.error err))
    (hempty : s.sink.dictionaries = []) :
    (repeating (Visits.noting b) m false v s).2.sink.dictionaries ≠ [] ↔ more = true := by
  have inner := (consults_holds _).inside hs m.name
  rw [repeating_eq _ false h, sink_inSection]
  rcases holds_ok h inner with ⟨he, rfl, -⟩ | ⟨e, he, hanswer⟩
  · rw [he]
    dsimp only
    rw [dictionaries_scan, hempty]
    simp
  · obtain ⟨-, -, first, rest, u, hnext, rfl⟩ := nonempty_ok hanswer
    rw [← first?_inside _ m.name, first?_eq he hnext] at hfirst
    rw [he]
    dsimp only
    rw [sink_sequence]
    rcases first with - | err | value
    · exact dictionaries_iterated b m.name m.separator none hnext hempty
    · exact absurd rfl (hfirst err)
    · exact dictionaries_iterated b m.name m.separator (some value) hnext hempty

end

/-! ## Sequences that fail -/

section

variable {b : Bool → Value → Run σ Exit} {v : Value} {m : Marker} {halt : Halt}

theorem conditional_error (b : Bool → Value → Run σ Exit)
    (hs : holds (v.lookup (pathOf m.name)) s = (.error halt, t)) (inverted muted : Bool) :
    (conditional b m inverted muted v s).1 = .error halt ∧
      (conditional b m inverted muted v s).2.sink = s.sink := by
  have inner := (consults_holds _).inside hs m.name
  have hsink := (consults_holds _).sink hs
  unfold conditional
  dsimp only
  rw [inSection_apply, Run.bind_apply, inner]
  exact ⟨rfl, hsink⟩

variable [Sink σ]

/-- A failure in the place of the first element ends the section before its body. -/
theorem iterated_error (b : Bool → Value → Run σ Exit) (name : String) (separator : Option String)
    (muted : Bool) {e rest : Elements} {err : DataError}
    (hnext : e.next s = (.ok (some (.error err), rest), t)) :
    ∃ u, iterated b name separator muted e s = (.error (.failed (.source err)), u) ∧
      u.sink = s.sink := by
  obtain ⟨fuel, hbound, hleft⟩ := bound_spec e s
  obtain ⟨fuel, rfl⟩ : ∃ n, fuel = n + 1 := ⟨fuel - 1, by omega⟩
  have hsink := (consults_next e).sink hnext
  refine ⟨{ t with scopes := .caching [] :: t.scopes }, ?_, hsink⟩
  unfold iterated
  simp only [pull_silent]
  rw [Run.bind_apply, hbound]
  dsimp only
  rw [Run.bind_apply, hnext]
  dsimp only
  rw [inScope_apply]
  rfl

/-- **A repeating section fails** where there is a failure in the place of its first element. -/
theorem repeating_first_failing (b : Bool → Value → Run σ Exit)
    (h : Sectional (v.lookup (pathOf m.name))) {err : DataError}
    (hfirst : first? (v.lookup (pathOf m.name)) s = some (.error err)) (muted : Bool) :
    (repeating b m muted v s).1 = .error (.failed (.source err)) ∧
      (repeating b m muted v s).2.sink = s.sink := by
  rw [← first?_inside _ m.name] at hfirst
  obtain ⟨e, rest, u, he, hnext⟩ := next_of_first? hfirst
  obtain ⟨u, hiterated, hsink⟩ := iterated_error b m.name m.separator muted hnext
  rw [repeating_eq _ muted h, inSection_apply, he]
  dsimp only
  rw [sequence_apply, hiterated]
  exact ⟨rfl, hsink⟩

end

/-! ## The three sections -/

/-- A section ends as what is done for its kind, and the body around it goes on. -/
theorem goesOn_apply (c : Run σ Unit) (s : State σ) :
    (c >>= fun _ => pure none : Run σ (Option Exit)) s = ((c s).1.map fun _ => none, (c s).2) := by
  rw [Run.bind_apply]
  generalize c s = x
  obtain ⟨answer, s'⟩ := x
  cases answer <;> rfl

/-- A test does not know the list. -/
theorem holds_listed {x : Except Halt Bool} (hs : holds found s = (x, t)) :
    holds found s.listed = (x, t.listed) := by
  have silent : (holds found : Run (Visits σ) Bool) s.listed = ((holds found s).1,
      (holds found s).2.withSink ⟨s.sink, []⟩) := (Silent.holds found s (Visits.mk s.sink [])).1
  rw [hs] at silent
  rw [silent, State.listed, (consults_holds _).sink hs]

/-- Nor does the first element. -/
theorem first?_listed (found : Option Value) (s : State σ) :
    first? found s.listed = first? found s := by
  cases he : found.bind elements? with
  | none => rw [first?, first?, he]; rfl
  | some e =>
    obtain ⟨first, rest, t, hnext⟩ := next_answers e s
    have silent : (e.next : Run (Visits σ) _) s.listed = _ :=
      (Silent.requests.next e s (Visits.mk s.sink [])).1
    rw [hnext] at silent
    rw [first?_eq he silent, first?_eq he hnext]

/-- What is on the list when a section has been carried out. -/
theorem rendered_eq [Sink σ] (b : Bool → Value → Run σ Exit) (job : Job) (v : Value) {m : Marker}
    {c : Run (Visits σ) Unit}
    (hc : obey (Visits.noting b) reopen job false v m = c >>= fun _ => pure none) (s : State σ) :
    rendered b job v m s = (c s.listed).2.sink.dictionaries.reverse := by
  rw [rendered, visit, hc, goesOn_apply]

theorem rendered_ne_nil [Sink σ] (b : Bool → Value → Run σ Exit) (job : Job) (v : Value) {m : Marker}
    {c : Run (Visits σ) Unit}
    (hc : obey (Visits.noting b) reopen job false v m = c >>= fun _ => pure none) (s : State σ) :
    rendered b job v m s ≠ [] ↔ (c s.listed).2.sink.dictionaries ≠ [] := by
  rw [rendered_eq b job v hc, ne_eq, List.reverse_eq_nil_iff]

variable [Sink σ]

section

variable (b : Bool → Value → Run σ Exit) (job : Job) (v : Value) (m : Marker)

/-- No number of tests changes the answer of a test, the elements that a section with the name, the
separator and the modifiers of a marker renders, or anything else that it comes to. -/
structure Undisturbed (s : State σ) (more : Bool) : Prop where
  again : ∀ k, let found := v.lookup (pathOf m.name)
    (holds found (asked found k s)).1 = .ok more
  sections : ∀ k, ∀ kind ∈ sectionKinds,
    let behind := asked (v.lookup (pathOf m.name)) k s
    let m := { m with kind := kind }
    rendered b job v m behind = rendered b job v m s ∧
      obey b reopen job false v m behind = obey b reopen job false v m s

/-- The three sections agree in a state on whether there is something: a repeating section renders
its body at least once, a conditional one renders it, and an inverted one does not. -/
structure SectionsAgree (s : State σ) (more : Bool) : Prop extends Undisturbed b job v m s more where
  repeating : rendered b job v { m with kind := .repeating } s ≠ [] ↔ more = true
  conditional : rendered b job v { m with kind := .conditional } s ≠ [] ↔ more = true
  inverted : rendered b job v { m with kind := .inverted } s ≠ [] ↔ more = false

/-- A sequence fails, the three sections fail alike, and none of them renders its body. -/
structure SectionsFail (s : State σ) (err : DataError) : Prop where
  failed : ∀ kind ∈ sectionKinds,
    (obey b reopen job false v { m with kind := kind } s).1 = .error (.failed (.source err))
  nothing : ∀ kind ∈ sectionKinds, rendered b job v { m with kind := kind } s = []

/-- There is something, but it is a failure: a conditional section renders its body, an inverted one
does not, and a repeating section fails in front of it. -/
structure SectionsDiffer (s : State σ) (err : DataError) : Prop
    extends Undisturbed b job v m s true where
  failed : (obey b reopen job false v { m with kind := .repeating } s).1 =
    .error (.failed (.source err))
  repeating : rendered b job v { m with kind := .repeating } s = []
  conditional : rendered b job v { m with kind := .conditional } s ≠ []
  inverted : rendered b job v { m with kind := .inverted } s = []

end

section

variable {b : Bool → Value → Run σ Exit} {v : Value} {m : Marker}

/-- A repeating section whose first element is a failure renders nothing. -/
theorem obey_failing (b : Bool → Value → Run σ Exit) (job : Job)
    (h : Sectional (v.lookup (pathOf m.name))) {err : DataError}
    (hfirst : first? (v.lookup (pathOf m.name)) s = some (.error err)) :
    (obey b reopen job false v { m with kind := .repeating } s).1 =
        .error (.failed (.source err)) ∧
      rendered b job v { m with kind := .repeating } s = [] := by
  constructor
  · have failed := (repeating_first_failing b (m := { m with kind := .repeating }) h hfirst false).1
    show ((Body.repeating b _ false v >>= fun _ => pure none : Run σ (Option Exit)) s).1 = _
    rw [goesOn_apply, failed]
    rfl
  · rw [← first?_listed] at hfirst
    rw [rendered_eq b job v (m := { m with kind := .repeating }) rfl,
      (repeating_first_failing _ (m := { m with kind := .repeating }) h hfirst false).2]
    rfl

/-- A section that tests a sequence that cannot tell renders nothing. -/
theorem conditional_failing (b : Bool → Value → Run σ Exit) (job : Job) {halt : Halt}
    (hs : holds (v.lookup (pathOf m.name)) s = (.error halt, t)) {kind : MarkerKind}
    {inverted : Bool} (hobey : ∀ {τ : Type} [Sink τ] (c : Bool → Value → Run τ Exit),
      obey c reopen job false v { m with kind := kind } =
        (Body.conditional c { m with kind := kind } inverted false v >>= fun _ => pure none)) :
    (obey b reopen job false v { m with kind := kind } s).1 = .error halt ∧
      rendered b job v { m with kind := kind } s = [] := by
  constructor
  · rw [hobey, goesOn_apply, (conditional_error b (m := { m with kind := kind }) hs _ _).1]
    rfl
  · rw [rendered_eq b job v (hobey _),
      (conditional_error _ (m := { m with kind := kind }) (holds_listed hs) _ _).2]
    rfl

/-- **Tests disturb nothing**, where they have an answer. -/
theorem undisturbed (B : ∀ muted v, Thrifty (b muted v)) (job : Job)
    (h : Sectional (v.lookup (pathOf m.name)))
    (hs : holds (v.lookup (pathOf m.name)) s = (.ok more, t)) :
    Undisturbed b job v m s more := by
  have noting : ∀ muted v, Thrifty (Visits.noting b muted v : Run (Visits σ) Exit) :=
    fun muted v s => B muted v s.unlisted
  refine ⟨fun k => ?_, fun k kind hkind => ?_⟩
  · dsimp only
    rcases asked_cases h hs k with hk | hk <;> rw [hk]
    · rw [hs]
    · rw [holds_again h hs]
  · dsimp only
    rcases asked_cases h hs k with hk | hk <;> rw [hk]
    · exact ⟨rfl, rfl⟩
    · have same := obey_tested (m := { m with kind := kind }) noting h (holds_listed hs) hkind
        reopen job false
      refine ⟨?_, obey_tested (m := { m with kind := kind }) B h hs hkind reopen job false⟩
      rw [rendered, visit, same, rendered, visit]

/-- What a conditional and an inverted section render, when the test has an answer. -/
theorem rendered_conditional (b : Bool → Value → Run σ Exit) (job : Job)
    (h : Sectional (v.lookup (pathOf m.name)))
    (hs : holds (v.lookup (pathOf m.name)) s = (.ok more, t)) :
    (rendered b job v { m with kind := .conditional } s ≠ [] ↔ more = true) ∧
      (rendered b job v { m with kind := .inverted } s ≠ [] ↔ more = false) := by
  have listed := holds_listed hs
  constructor
  · rw [rendered_ne_nil _ job v (m := { m with kind := .conditional }) rfl]
    refine (dictionaries_conditional _ (m := { m with kind := .conditional }) h listed rfl
      false).trans ?_
    cases more <;> simp
  · rw [rendered_ne_nil _ job v (m := { m with kind := .inverted }) rfl]
    refine (dictionaries_conditional _ (m := { m with kind := .inverted }) h listed rfl
      true).trans ?_
    cases more <;> simp

end

/-- **Sections agree about emptiness**, in every state of the render and of its sequences, unless
there is a failure in the place of the first element.  Then all three of them fail at a single-pass
sequence; where the elements are at hand there counts as something, and only a repeating section
fails.  A section whose bodies are noted does what the section does. -/
theorem sections_agree (job : Job) (n : Nat) {v : Value} {m : Marker}
    (h : Sectional (v.lookup (pathOf m.name))) (s : State σ) :
    let b : Bool → Value → Run σ Exit := write job n
    let found := v.lookup (pathOf m.name)
    ((∀ err, first? found s ≠ some (.error err)) →
        ∃ more, (holds found s).1 = .ok more ∧ SectionsAgree b job v m s more) ∧
      (∀ err, first? found s = some (.error err) →
        (∀ id, found = some (.stream id) → SectionsFail b job v m s err) ∧
          ((∀ id, found ≠ some (.stream id)) → SectionsDiffer b job v m s err)) ∧
      ∀ kind ∈ sectionKinds, obey b reopen job false v { m with kind := kind } s =
        ((visit b job v { m with kind := kind } s).1,
          (visit b job v { m with kind := kind } s).2.unlisted) := by
  intro b found
  have thrifty : ∀ muted v, Thrifty (b muted v : Run σ Exit) := Thrifty.write job n
  refine ⟨fun hfirst => ?_, fun err hfirst => ⟨fun id hid => ?_, fun hid => ?_⟩, ?_⟩
  · obtain ⟨more, t, hs⟩ := holds_answers h hfirst
    obtain ⟨hconditional, hinverted⟩ := rendered_conditional b job h hs
    refine ⟨more, by rw [hs], undisturbed thrifty job h hs, ?_, hconditional, hinverted⟩
    rw [rendered_ne_nil _ job v (m := { m with kind := .repeating }) rfl]
    refine dictionaries_repeating _ (m := { m with kind := .repeating }) h (holds_listed hs) ?_ rfl
    exact fun err => first?_listed _ s ▸ hfirst err
  · have hfailing := hfirst
    rw [hid] at hfailing
    obtain ⟨t, hs⟩ := holds_stream_failing hfailing
    rw [← hid] at hs
    have sections : ∀ kind ∈ sectionKinds,
        (obey b reopen job false v { m with kind := kind } s).1 = .error (.failed (.source err)) ∧
          rendered b job v { m with kind := kind } s = [] := by
      intro kind hkind
      cases kind with
      | repeating => exact obey_failing b job h hfirst
      | conditional => exact conditional_failing b job hs fun _ => rfl
      | inverted => exact conditional_failing b job hs fun _ => rfl
      | _ => simp [sectionKinds] at hkind
    exact ⟨fun kind hkind => (sections kind hkind).1, fun kind hkind => (sections kind hkind).2⟩
  · have hs := holds_atHand h hid hfirst
    obtain ⟨hconditional, hinverted⟩ := rendered_conditional b job h hs
    obtain ⟨failed, nothing⟩ := obey_failing b job h hfirst
    refine ⟨undisturbed thrifty job h hs, failed, nothing, hconditional.mpr rfl, ?_⟩
    exact of_not_not fun hne => Bool.noConfusion (hinverted.mp hne)
  · exact fun kind hkind => visit_apply b job v { m with kind := kind } hkind s

/-- The rows of a cursor in three states: before its only row, behind it while the end has not been
found, and where the first step fails; and a series whose only element is a failure. -/
theorem sections_agree_cursor :
    let job : Job := ⟨"page", .builtins, none, ⟨.default, 0⟩, none, []⟩
    let v : Value := .record [("rows", .stream 0)]
    let w : Value := .record [("rows", .series [.error (.source "gone")])]
    let m : Marker := ⟨.repeating, "rows", some ", ", []⟩
    let state (c : Cursor) : State String :=
      { sink := ""
        reader := Reader.ofSource (.ofText "{{id}}{{/rows}}")
        streams := ⟨[.rows (.ofCursor c [])], []⟩
        shelf := .ofLoader (.memory [])
        bundle := none
        scopes := []
        sections := []
        active := ["page"] }
    let fresh := state (.ofRows ["id"] [[some (.text "a")]])
    let last := { fresh with streams := (fresh.streams.next 0).2 }
    let broken := state { Cursor.ofRows ["id"] [] with moves := [.failure (.source "gone")] }
    let b : Bool → Value → Run String Exit := write job 4
    Sectional (v.lookup (pathOf m.name)) ∧ Sectional (w.lookup (pathOf m.name)) ∧
      (∃ more, (holds (v.lookup (pathOf m.name)) fresh).1 = .ok more ∧
        SectionsAgree b job v m fresh more) ∧
      (∃ more, (holds (v.lookup (pathOf m.name)) last).1 = .ok more ∧
        SectionsAgree b job v m last more) ∧
      SectionsFail b job v m broken (.source "gone") ∧
      SectionsDiffer b job w m fresh (.source "gone") := by
  intro job v w m state fresh last broken b
  have hpath : pathOf m.name = ["rows"] := by decide +kernel
  have hv : v.lookup (pathOf m.name) = some (.stream 0) := by
    rw [hpath]
    rfl
  have hw : w.lookup (pathOf m.name) = some (.series [.error (.source "gone")]) := by
    rw [hpath]
    rfl
  have h : Sectional (v.lookup (pathOf m.name)) := by
    rw [hv]
    rintro _ ⟨⟩
    exact .inr rfl
  have h' : Sectional (w.lookup (pathOf m.name)) := by
    rw [hw]
    rintro _ ⟨⟩
    exact .inr rfl
  have first (s : State String) {x : Option (Except DataError Value)}
      (hs : first? (some (.stream 0)) s = x) : first? (v.lookup (pathOf m.name)) s = x := by
    rw [hv, hs]
  refine ⟨h, h', (sections_agree job 4 h fresh).1 fun err => ?_,
    (sections_agree job 4 h last).1 fun err => ?_,
    ((sections_agree job 4 h broken).2.1 _ (first broken rfl)).1 0 hv,
    ((sections_agree job 4 h' fresh).2.1 _ (by rw [hw]; rfl)).2 fun id => by rw [hw]; nofun⟩
  · rw [first fresh rfl]
    nofun
  · rw [first last rfl]
    nofun

/-- Sections need not agree where there is a failure in the place of the first element: over a series
a conditional section renders its body and a repeating one does not; over a cursor neither a
repeating section nor an inverted one does. -/
theorem sections_disagree :
    let job : Job := ⟨"page", .builtins, none, ⟨.default, 0⟩, none, []⟩
    let series : Value := .record [("rows", .series [.error (.source "gone")])]
    let cursor : Value := .record [("rows", .stream 0)]
    let m (kind : MarkerKind) : Marker := ⟨kind, "rows", none, []⟩
    let failing : Cursor := { Cursor.ofRows ["id"] [] with moves := [.failure (.source "gone")] }
    let s : State String :=
      { sink := ""
        reader := Reader.ofSource (.ofText "x{{/rows}}")
        streams := ⟨[.rows (.ofCursor failing [])], []⟩
        shelf := .ofLoader (.memory [])
        bundle := none
        scopes := []
        sections := []
        active := ["page"] }
    let renders (v : Value) (kind : MarkerKind) : Bool :=
      !(rendered (write job 4) job v (m kind) s).isEmpty
    (∀ v ∈ [series, cursor], Sectional (v.lookup (pathOf "rows"))) ∧
      ¬(renders series .repeating = true ↔ renders series .conditional = true) ∧
      ¬(renders cursor .repeating = true ↔ ¬renders cursor .inverted = true) := by
  intro job series cursor m failing s renders
  have hpath : pathOf "rows" = ["rows"] := by decide +kernel
  refine ⟨?_, by decide +kernel, by decide +kernel⟩
  simp only [List.forall_mem_cons, List.not_mem_nil, false_implies, implies_true, and_true]
  rw [hpath]
  constructor
  · rintro _ ⟨⟩
    exact .inr rfl
  · rintro _ ⟨⟩
    exact .inr rfl

end Body

end Stencil
