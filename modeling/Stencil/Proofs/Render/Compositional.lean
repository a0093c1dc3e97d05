import Stencil.Render.Body

/-!
# What is said of a render part by part

Much of what is proved of renders is a relation between two computations, or a property of one, that
lasts where one computation is carried out behind another.  Such a relation holds of sections,
included templates and bodies as soon as it holds of the few computations that these are made of.
Here each part of a render is taken apart once, for all relations of this kind.

- `Compositional`: relations that last from one computation to the next;
- `Compositional.substitute`, `Compositional.separate`: variables and separators;
- `Compositional.Requests`: asking single-pass sequences;
- `Compositional.Copies`: **text up to a marker**;
- `Compositional.Sections`: bodies that are read once, or only scanned;
- `Compositional.Loops`: **bodies that are read for each element** of a sequence;
- `Compositional.Looks.step`: **one more marker**;
- `Compositional.Templates`, `Compositional.Templates.write`: included templates, and **whole
  bodies**;
- `OfFirst`: a property of one render, as a relation that does not look at the second.
-/

namespace Stencil

open Body

variable {σ τ α β : Type}

/-- A relation between computations of two renders that lasts when one computation is carried out
behind another. -/
structure Compositional (R : ∀ ⦃α : Type⦄, Run σ α → Run τ α → Prop) : Prop where
  answer {α : Type} (a : α) : R (pure a : Run σ α) (pure a)
  halt {α : Type} (e : Halt) : R (throw e : Run σ α) (throw e)
  bind {α β : Type} {c : Run σ α} {d : Run τ α} {k : α → Run σ β} {l : α → Run τ β} :
    R c d → (∀ a, R (k a) (l a)) → R (c >>= k) (d >>= l)

/-- What is said of the first of two computations only. -/
def OfFirst (P : ∀ ⦃α : Type⦄, Run σ α → Prop) ⦃α : Type⦄ (c _ : Run σ α) : Prop := P c

namespace Compositional

variable {R : ∀ ⦃α : Type⦄, Run σ α → Run τ α → Prop}

section

variable (C : Compositional R)

include C

theorem fail (e : RenderError) : R (Run.fail e : Run σ α) (Run.fail e) := C.halt (.failed e)

theorem answered (x : Except DataError α) : R (Run.answered x : Run σ α) (Run.answered x) := by
  cases x with
  | ok a => exact C.answer a
  | error e => exact C.fail _

theorem map {c : Run σ α} {d : Run τ α} (f : α → β) (h : R c d) : R (f <$> c) (f <$> d) := by
  rw [map_eq_pure_bind, map_eq_pure_bind]
  exact C.bind h fun a => C.answer (f a)

/-- A variable is looked up, where the texts may be asked for. -/
theorem resolve [Observer σ] [Observer τ] {job : Job}
    (consulting : R (Run.notice .consulting : Run σ Unit) (Run.notice .consulting))
    (texts : R (Run.texts job : Run σ (Option Bundle)) (Run.texts job)) (v : Value)
    (name : String) :
    R (Body.resolve job v name : Run σ (Option Scalar)) (Body.resolve job v name) := by
  unfold Body.resolve
  cases Reference.ofName name with
  | text key => exact C.bind consulting fun _ => C.bind texts fun _ => C.answer _
  | setting key => exact C.answer _
  | path keys =>
    dsimp only
    cases v.lookup keys with
    | none => exact C.answer _
    | some found =>
      cases found with
      | null => exact C.answer _
      | scalar s => exact C.answer _
      | _ => exact C.fail _

/-! ## Writing -/

variable [Sink σ] [Sink τ]
  (emit : ∀ muted text, R (Run.emit muted text : Run σ Unit) (Run.emit muted text))

include emit

theorem separate (separator : Option String) (first muted : Bool) :
    R (Body.separate separator first muted : Run σ Unit)
      (Body.separate separator first muted) := by
  cases first with
  | true => exact C.answer ()
  | false =>
    cases separator with
    | none => exact C.answer ()
    | some text => exact emit muted text

/-- A variable is written that is looked up alike. -/
theorem substitute [Observer σ] [Observer τ] {job : Job} {v : Value} {m : Marker} (muted : Bool)
    (found : R (Body.resolve job v m.name : Run σ (Option Scalar)) (Body.resolve job v m.name)) :
    R (Body.substitute job muted v m : Run σ Unit) (Body.substitute job muted v m) := by
  refine C.bind found fun found => ?_
  cases found with
  | none => exact C.answer ()
  | some value => exact emit muted _

end

/-! ## Single-pass sequences -/

/-- A relation that holds of what single-pass sequences are asked. -/
structure Requests (R : ∀ ⦃α : Type⦄, Run σ α → Run τ α → Prop) : Prop extends
    Compositional R where
  stepsLeft (id : Nat) : R ((Elements.stream id).bound : Run σ Nat) (Elements.stream id).bound
  nextRow (id : Nat) : R (Run.request (Streams.next id) : Run σ _) (Run.request (Streams.next id))
  hasNext (id : Nat) :
    R (Run.request (Streams.hasNext id) : Run σ _) (Run.request (Streams.hasNext id))

namespace Requests

variable (C : Requests R)

include C

theorem bound (e : Elements) : R (e.bound : Run σ Nat) e.bound := by
  cases e with
  | list items => exact C.answer _
  | stream id => exact C.stepsLeft id

theorem next (e : Elements) :
    R (e.next : Run σ (Option (Except DataError Value) × Elements)) e.next := by
  cases e with
  | list items => cases items <;> exact C.answer _
  | stream id =>
    refine C.bind (C.nextRow id) fun answer => ?_
    rcases answer with e | row | row <;> exact C.answer _

theorem nonempty (e : Elements) : R (e.nonempty : Run σ (Except DataError Bool)) e.nonempty := by
  cases e with
  | list items => exact C.answer _
  | stream id => exact C.hasNext id

/-- A value is tested. -/
theorem holds [Observer σ] [Observer τ]
    (testing : ∀ e, R (Run.notice (.testing e) : Run σ Unit) (Run.notice (.testing e)))
    (found : Option Value) : R (Body.holds found : Run σ Bool) (Body.holds found) := by
  have asked (e : Elements) :
      R (Run.notice (.testing e) >>= fun _ => e.nonempty >>= Run.answered : Run σ Bool)
        (Run.notice (.testing e) >>= fun _ => e.nonempty >>= Run.answered) :=
    C.bind (testing e) fun _ => C.bind (C.nonempty e) fun answer => C.answered answer
  cases found with
  | none => exact C.answer _
  | some v =>
    cases v with
    | list items => exact asked (.list (items.map .ok))
    | series items => exact asked (.list items)
    | stream id => exact asked (.stream id)
    | scalar s => cases s <;> exact C.answer _
    | _ => exact C.answer _

end Requests

/-! ## Text -/

/-- A relation that holds of what copying a text is made of. -/
structure Copies [Sink σ] [Sink τ] (R : ∀ ⦃α : Type⦄, Run σ α → Run τ α → Prop) : Prop extends
    Compositional R where
  readChar : R (Run.readChar : Run σ (Option Char)) Run.readChar
  readMarker : R (Run.readMarker : Run σ Marker) Run.readMarker
  checkSink (muted : Bool) : R (Run.checkSink muted : Run σ Unit) (Run.checkSink muted)
  emit (muted : Bool) (text : String) : R (Run.emit muted text : Run σ Unit) (Run.emit muted text)

namespace Copies

variable [Sink σ] [Sink τ] (C : Copies R)

include C

/-- **Text up to a marker**, by induction on the characters that are left. -/
theorem copyText (muted : Bool) (n : Nat) :
    R (Run.copyText muted n : Run σ (Option Marker)) (Run.copyText muted n) := by
  induction n with
  | zero => exact C.halt .exhausted
  | succ n ih =>
    rw [Run.copyText, Run.copyText]
    refine C.bind (C.checkSink muted) fun _ => C.bind C.readChar fun first => ?_
    cases first with
    | none => exact C.answer none
    | some c =>
      dsimp only
      by_cases hc : c = '{'
      · rw [if_pos hc, if_pos hc]
        refine C.bind C.readChar fun second => ?_
        cases second with
        | none => exact C.bind (C.emit muted _) fun _ => C.answer none
        | some c =>
          dsimp only
          by_cases hc : c = '{'
          · rw [if_pos hc, if_pos hc]
            exact C.map some C.readMarker
          · rw [if_neg hc, if_neg hc]
            exact C.bind (C.emit muted _) fun _ => C.bind (C.emit muted _) fun _ => ih
      · rw [if_neg hc, if_neg hc]
        exact C.bind (C.emit muted _) fun _ => ih

end Copies

/-! ## Sections -/

variable {b : Bool → Value → Run σ Exit} {c : Bool → Value → Run τ Exit}

/-- The body of a section, up to its end marker. -/
theorem closed (C : Compositional R) (B : ∀ muted v, R (b muted v) (c muted v)) (name : String)
    (muted : Bool) (v : Value) :
    R (Body.closed b name muted v) (Body.closed c name muted v) := by
  refine C.bind (B muted v) fun exit => ?_
  cases exit with
  | sectionEnd => exact C.answer ()
  | endOfText => exact C.fail _

variable [Observer σ] [Observer τ]

/-- A relation that lasts in sections, also in those that are only scanned. -/
structure Sections (R : ∀ ⦃α : Type⦄, Run σ α → Run τ α → Prop) : Prop extends
    Compositional R where
  scanning {c : Run σ Unit} {d : Run τ Unit} :
    R c d → R (Run.inScope .discarding c) (Run.inScope .discarding d)
  inSection {c : Run σ Unit} {d : Run τ Unit} (name : String) :
    R c d → R (Run.inSection name c) (Run.inSection name d)
  holds (found : Option Value) : R (Body.holds found : Run σ Bool) (Body.holds found)

namespace Sections

variable (S : Sections R)
  (B : ∀ name muted v, R (Body.closed b name muted v) (Body.closed c name muted v))

include S B

theorem scan (name : String) : R (Body.scan b name) (Body.scan c name) :=
  S.scanning (B name true _)

theorem conditional (m : Marker) (inverted muted : Bool) (v : Value) :
    R (Body.conditional b m inverted muted v) (Body.conditional c m inverted muted v) := by
  unfold Body.conditional
  generalize v.lookup (pathOf m.name) = found
  refine S.inSection m.name (S.bind (S.holds found) fun holds => ?_)
  cases holds with
  | false =>
    cases inverted with
    | false => exact S.scan B m.name
    | true => exact B m.name muted v
  | true =>
    cases inverted with
    | false =>
      cases found with
      | none => exact S.scan B m.name
      | some value => exact B m.name muted value.asDictionary
    | true => exact S.scan B m.name

/-- A repeating section, for a relation that holds of all that it does with a sequence. -/
theorem repeating [Sink σ] [Sink τ] (m : Marker) (muted : Bool) (v : Value)
    (sequence : ∀ e, R (Body.sequence b m.name m.separator muted e)
      (Body.sequence c m.name m.separator muted e)) :
    R (Body.repeating b m muted v) (Body.repeating c m muted v) := by
  refine S.inSection m.name ?_
  cases v.lookup (pathOf m.name) with
  | none => exact S.scan B m.name
  | some found =>
    cases found with
    | null => exact S.scan B m.name
    | list items => exact sequence (.list (items.map .ok))
    | series items => exact sequence (.list items)
    | stream id => exact sequence (.stream id)
    | _ => exact S.fail _

end Sections

/-! ## Elements -/

/-- A relation that lasts in sections over elements.  Between two of them the reader goes back to
where it has been marked; closing the sequence behind the elements does not end the relation. -/
structure Loops [Sink σ] [Sink τ] (R : ∀ ⦃α : Type⦄, Run σ α → Run τ α → Prop) : Prop extends
    Sections R where
  caching {c : Run σ Unit} {d : Run τ Unit} :
    R c d → R (Run.inScope (.caching []) c) (Run.inScope (.caching []) d)
  bound (e : Elements) : R (e.bound : Run σ Nat) e.bound
  pull (e : Elements) : R (Body.pull e : Run σ _) (Body.pull e)
  again {c k : Run σ Unit} {d l : Run τ Unit} : R c d → R k l →
    R (markIf true >>= fun _ => c >>= fun _ => rewind >>= fun _ => k)
      (markIf true >>= fun _ => d >>= fun _ => rewind >>= fun _ => l)
  closing {b : Bool → Value → Run σ Exit} {c : Bool → Value → Run τ Exit} {name : String}
    {separator : Option String} {muted : Bool} {e : Elements} :
    R (iterated b name separator muted e) (iterated c name separator muted e) →
      R (sequence b name separator muted e) (sequence c name separator muted e)

namespace Loops

variable [Sink σ] [Sink τ] (L : Loops R)
  (B : ∀ name muted v, R (Body.closed b name muted v) (Body.closed c name muted v))
  {separator : Option String}
  (hsep : ∀ first muted, R (Body.separate separator first muted : Run σ Unit)
    (Body.separate separator first muted))

include L B hsep

/-- The loop over the elements, by induction on its fuel. -/
theorem each (name : String) (muted : Bool) (fuel : Nat) :
    ∀ (first : Bool) (element : Except DataError Value) (rest : Elements),
      R (Body.each b name separator muted fuel first element rest)
        (Body.each c name separator muted fuel first element rest) := by
  induction fuel with
  | zero => exact fun _ _ _ => L.halt .exhausted
  | succ fuel ih =>
    intro first element rest
    unfold Body.each
    refine L.bind (L.answered element) fun v => L.bind (L.pull rest) fun next => ?_
    obtain ⟨following, rest⟩ := next
    have body := B name muted v.asDictionary
    cases following with
    | none =>
      -- the body is read for the last time
      refine L.bind (L.answer ()) fun _ => L.bind (hsep first muted) fun _ => ?_
      exact L.bind body fun _ => L.answer ()
    | some element =>
      have loop := L.again (L.bind (hsep first muted) fun _ => body) (ih false element rest)
      simp only [bind_assoc] at loop
      exact loop

theorem iterated (name : String) (muted : Bool) (e : Elements) :
    R (Body.iterated b name separator muted e) (Body.iterated c name separator muted e) := by
  refine L.bind (L.bound e) fun fuel => L.bind (L.pull e) fun next => ?_
  obtain ⟨first, rest⟩ := next
  cases first with
  | none => exact L.scan B name
  | some element => exact L.caching (L.each B hsep name muted fuel true element rest)

theorem sequence (name : String) (muted : Bool) (e : Elements) :
    R (Body.sequence b name separator muted e) (Body.sequence c name separator muted e) :=
  L.closing (L.iterated B hsep name muted e)

end Loops

/-! ## Markers -/

/-- Two states with the same reader, within the same templates, sections and scopes. -/
structure Beside (s : State σ) (t : State τ) : Prop where
  reader : s.reader = t.reader
  scopes : s.scopes = t.scopes
  sections : s.sections = t.sections
  active : s.active = t.active

/-- A relation that lasts where a render looks at its state, and what it looks at is the same in the
other one. -/
structure Looks (R : ∀ ⦃α : Type⦄, Run σ α → Run τ α → Prop) : Prop extends Compositional R where
  look {α : Type} {f : State σ → Run σ α} {g : State τ → Run τ α} :
    (∀ s t, Beside s t → R (f s) (g t)) → R (get >>= f) (get >>= g)

namespace Looks

variable [Sink σ] [Sink τ] (C : Looks R) {f : Opener σ} {g : Opener τ} {job job' : Job}
  {muted : Bool} {v : Value}

include C

omit [Sink σ] [Sink τ] [Observer σ] [Observer τ] in
theorem sectionEnd (name : String) :
    R (Body.sectionEnd name : Run σ Exit) (Body.sectionEnd name) := by
  refine C.look fun s t h => ?_
  rw [h.sections]
  cases t.sections with
  | nil => exact C.fail _
  | cons opened outer =>
    dsimp only
    by_cases hname : opened = name
    · rw [if_pos hname, if_pos hname]
      exact C.answer _
    · rw [if_neg hname, if_neg hname]
      exact C.fail _

/-- What a marker asks for is carried out, by cases of the kinds of markers. -/
theorem obey {m : Marker}
    (substitute : R (Body.substitute job muted v m : Run σ Unit) (Body.substitute job' muted v m))
    (repeating : R (Body.repeating b m muted v) (Body.repeating c m muted v))
    (conditional : ∀ inverted,
      R (Body.conditional b m inverted muted v) (Body.conditional c m inverted muted v))
    (included : R (Body.included b f job m.name muted v) (Body.included c g job' m.name muted v)) :
    R (Body.obey b f job muted v m) (Body.obey c g job' muted v m) := by
  unfold Body.obey
  cases m.kind with
  | comment => exact C.answer none
  | «variable» => exact C.bind substitute fun _ => C.answer none
  | repeating => exact C.bind repeating fun _ => C.answer none
  | conditional => exact C.bind (conditional false) fun _ => C.answer none
  | inverted => exact C.bind (conditional true) fun _ => C.answer none
  | «include» => exact C.bind included fun _ => C.answer none
  | sectionEnd => exact C.map some (C.sectionEnd m.name)

/-- **One more marker**: the text in front of it, the marker, and the body behind it. -/
theorem step
    (copyText : ∀ n, R (Run.copyText muted n : Run σ (Option Marker)) (Run.copyText muted n))
    (obey : ∀ m, R (Body.obey b f job muted v m) (Body.obey c g job' muted v m))
    (body : R (b muted v) (c muted v)) :
    R (Body.step b f job muted v) (Body.step c g job' muted v) := by
  refine C.look fun s t h => ?_
  rw [h.reader]
  refine C.bind (copyText _) fun found => ?_
  cases found with
  | none => exact C.answer _
  | some m =>
    refine C.bind (obey m) fun exit => ?_
    cases exit with
    | some exit => exact C.answer exit
    | none => exact body

end Looks

/-! ## Included templates -/

/-- A relation that lasts in included templates. -/
structure Templates (R : ∀ ⦃α : Type⦄, Run σ α → Run τ α → Prop) : Prop extends Looks R where
  reaching (name : String) :
    R (Run.notice (.reaching name) : Run σ Unit) (Run.notice (.reaching name))
  supplied (name : String) (kept : Bool) :
    R (Run.notice (.supplied name kept) : Run σ Unit) (Run.notice (.supplied name kept))
  takeReader (name : String) : R (Body.takeReader name : Run σ _) (Body.takeReader name)
  keepReader (name : String) (r : Reader) :
    R (Body.keepReader name r : Run σ Unit) (Body.keepReader name r)
  inTemplate {b : Bool → Value → Run σ Exit} {c : Bool → Value → Run τ Exit} {muted : Bool}
    {v : Value} (resolved : String) (r : Reader) : R (b muted v) (c muted v) →
      R (Body.inTemplate b resolved r muted v) (Body.inTemplate c resolved r muted v)

namespace Templates

variable (T : Templates R) {f : Opener σ} {g : Opener τ} {job job' : Job} {muted : Bool} {v : Value}

include T

theorem entering (body : R (b muted v) (c muted v))
    (opener : ∀ resolved kept, R (f resolved kept) (g resolved kept))
    (hjob : job.template = job'.template) (name : String) :
    R (Body.entering b f job name muted v) (Body.entering c g job' name muted v) := by
  refine T.bind (T.takeReader name) fun kept => T.look fun s t h => ?_
  rw [h.active, hjob]
  by_cases hactive : t.active.contains (resolveRelative job'.template name) = true
  · rw [if_pos hactive, if_pos hactive]
    exact T.fail _
  · rw [if_neg hactive, if_neg hactive]
    refine T.bind (opener _ kept) fun r => T.bind (T.supplied name _) fun _ => ?_
    exact T.bind (T.inTemplate _ r body) fun r => T.keepReader name r

theorem included (body : R (b muted v) (c muted v))
    (opener : ∀ resolved kept, R (f resolved kept) (g resolved kept))
    (hjob : job.template = job'.template) (name : String) :
    R (Body.included b f job name muted v) (Body.included c g job' name muted v) := by
  have enter := T.entering body opener hjob name
  refine T.bind (T.reaching name) fun _ => T.look fun s t h => ?_
  rw [h.scopes]
  cases t.scopes with
  | nil => exact enter
  | cons scope _ =>
    cases scope with
    | discarding => exact T.answer ()
    | caching _ => exact enter

variable [Sink σ] [Sink τ]

/-- **Whole bodies**, by induction on the fuel. -/
theorem write (S : Sections R) (hjob : job.template = job'.template)
    (copyText : ∀ muted n, R (Run.copyText muted n : Run σ (Option Marker)) (Run.copyText muted n))
    (substitute : ∀ muted v m,
      R (Body.substitute job muted v m : Run σ Unit) (Body.substitute job' muted v m))
    (sequence : ∀ {b : Bool → Value → Run σ Exit} {c : Bool → Value → Run τ Exit},
      (∀ muted v, R (b muted v) (c muted v)) → ∀ name separator muted e,
        R (Body.sequence b name separator muted e) (Body.sequence c name separator muted e))
    (opener : ∀ resolved kept, R (reopen resolved kept : Run σ Reader) (reopen resolved kept))
    (n : Nat) :
    ∀ muted v, R (Body.write job n muted v : Run σ Exit) (Body.write job' n muted v) := by
  induction n with
  | zero => exact fun _ _ => T.halt .exhausted
  | succ n ih =>
    intro muted v
    have closed := T.closed ih
    refine T.step (copyText muted) (fun m => T.obey (substitute muted v m) ?_ ?_ ?_) (ih muted v)
    · exact S.repeating closed m muted v (sequence ih m.name m.separator muted)
    · exact fun inverted => S.conditional closed m inverted muted v
    · exact T.included (ih muted v) opener hjob m.name

end Templates

end Compositional

end Stencil
