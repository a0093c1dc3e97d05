import Stencil.Render.State

/-!
# Writing templates

A template is written for a dictionary: text is copied, and each marker is carried out when it is
reached.

* A variable is looked up, changed by its modifiers and written;
* a repeating section writes its body once for each element of a sequence: before every element but
  the last, the reader is marked, and reset behind the body.  The body of a section without elements
  is scanned to find its end;
* a conditional section writes its body once, or scans it;
* an included template is written for the same dictionary.  Inside a repeating section it is opened
  once, and read again from its start afterwards.

`Body.write` is the iteration of `Body.step`, which carries out one marker and leaves the bodies of
sections and included templates to a computation that it is given, and the choice of their readers
to another one.  So that it ends, it is given fuel: one unit for each marker on the way from the
start of the template to where the render is.  `Body.fuelFor` is enough of it.
-/

namespace Stencil

/-- Why the writing of a template or a body ends. -/
inductive Exit where
  | endOfText
  | sectionEnd
  deriving DecidableEq

namespace Body

variable {σ : Type} [Sink σ] [Observer σ]

/-- The keys of a name: they are separated by points, but the key of own dictionaries is a point
(`split_path`). -/
def pathOf (name : String) : List String :=
  if name = Value.ownKey then [name] else (Text.splitAt '.' name.toList).map String.ofList

/-! ## Variables -/

/-- What the name of a variable refers to: the three cases of `write_variable`. -/
inductive Reference where
  /-- Behind `@`: the text of a key. -/
  | text (key : String)
  /-- Behind `$`: a variable of the render. -/
  | setting (key : String)
  /-- What the dictionary has under a path. -/
  | path (keys : List String)

/-- Reads the name of a variable. -/
def Reference.ofName (name : String) : Reference :=
  match name.toList with
  | '@' :: key => .text (String.ofList key)
  | '$' :: key => .setting (String.ofList key)
  | _ => .path (pathOf name)

/-- The scalar that a name stands for in `write_variable`.  A key without a text, and a variable
that the render does not have, stand for themselves. -/
def resolve (job : Job) (v : Value) (name : String) : Run σ (Option Scalar) := do
  match Reference.ofName name with
  | .text key =>
    Run.notice .consulting
    pure (some (.text (((← Run.texts job).bind (·.get? key)).getD key)))
  | .setting key => pure (some ((Fields.get? key job.context).getD (.text key)))
  | .path keys =>
    match v.lookup keys with
    | none | some .null => pure none
    | some (.scalar s) => pure (some s)
    | some _ => Run.fail (.invalidVariable name)

/-- Applies a modifier, if `resolve` finds one; a name without a modifier changes nothing. -/
def modified (job : Job) (value : Scalar) (call : ModifierCall) : Scalar :=
  match job.registry.resolve? call.name with
  | some m => m value call.argument job.settings
  | none => value

/-- The modifiers of a variable: its own, and behind them the one of the render
(`default_modifier`). -/
def chain (job : Job) (m : Marker) : List ModifierCall :=
  m.modifiers ++ job.defaultModifier.toList.map (⟨·, none⟩)

/-- Writes a variable (`write_variable`). -/
def substitute (job : Job) (muted : Bool) (v : Value) (m : Marker) : Run σ Unit := do
  match ← resolve job v m.name with
  | none => pure ()
  | some value => Run.emit muted ((chain job m).foldl (modified job) value).display

/-! ## Sections

`body muted v` writes the template of the reader from where it stands, for the dictionary `v`. -/

section

variable (body : Bool → Value → Run σ Exit)

/-- Writes the body of a section, and its end marker is read (`write_body`). -/
def closed (name : String) (muted : Bool) (v : Value) : Run σ Unit := do
  match ← body muted v with
  | .sectionEnd => pure ()
  | .endOfText => Run.fail (.unterminatedSection name)

/-- Scans the body of a section (`discard_body`). -/
def scan (name : String) : Run σ Unit :=
  Run.inScope .discarding (closed body name true (.own .null))

namespace Elements

/-- The next element, which may be a failure (`elements`). -/
def next : Elements → Run σ (Option (Except DataError Value) × Elements)
  | .list [] => pure (none, .list [])
  | .list (element :: rest) => pure (some element, .list rest)
  | .stream id => do
    match ← Run.request (Streams.next id) with
    | .ok none => pure (none, .stream id)
    | .ok (some row) => pure (some (.ok (.ofRow row)), .stream id)
    | .error e => pure (some (.error e), .stream id)

/-- Closes the sequence. -/
def close : Elements → Run σ (Except DataError Unit)
  | .list _ => pure (.ok ())
  | .stream id => Run.request (Streams.close id)

/-- Whether there is an element, as `is_empty` tells; a failure in the place of one is an element
too. -/
def nonempty : Elements → Run σ (Except DataError Bool)
  | .list items => pure (.ok (!items.isEmpty))
  | .stream id => Run.request (Streams.hasNext id)

/-- More than the elements that are left. -/
def bound : Elements → Run σ Nat
  | .list items => pure (items.length + 1)
  | .stream id => do pure ((← get).streams.stepsLeft id + 2)

end Elements

/-- The elements of a sequence (`as_sequence`). -/
def elements? : Value → Option Elements
  | .stream id => some (.stream id)
  | v => v.items?.map .list

/-- Asks a sequence for its next element, as the `peek` of `write_sequence` and `write_elements`
does. -/
def pull (elements : Elements) : Run σ (Option (Except DataError Value) × Elements) := do
  Run.notice .pulling
  let (following, rest) ← elements.next
  Run.notice (.pulled following)
  pure (following, rest)

/-- Marks the reader when the body will be read again. -/
def markIf (more : Bool) : Run σ Unit :=
  if more then modify fun s => { s with reader := s.reader.mark } else pure ()

/-- Goes back to the start of the body. -/
def rewind : Run σ Unit := modify fun s => { s with reader := s.reader.reset }

/-- Writes the separator, unless no element has been written before. -/
def separate (separator : Option String) (first muted : Bool) : Run σ Unit :=
  match first, separator with
  | false, some text => Run.emit muted text
  | _, _ => pure ()

/-- Writes the body for an element and all that follow it (`write_elements`); `first` tells that
none has been written.  `fuel` is more than the elements that are left. -/
def each (name : String) (separator : Option String) (muted : Bool) :
    Nat → (first : Bool) → Except DataError Value → Elements → Run σ Unit
  | 0, _, _, _ => throw .exhausted
  | fuel + 1, first, element, rest => do
    let v ← Run.answered element
    let (following, rest) ← pull rest
    markIf following.isSome
    separate separator first muted
    closed body name muted v.asDictionary
    match following with
    | none => pure ()
    | some element =>
      rewind
      each name separator muted fuel false element rest

/-- Writes the body for all elements of a sequence: `write_sequence` up to where it closes the
sequence. -/
def iterated (name : String) (separator : Option String) (muted : Bool) (elements : Elements) :
    Run σ Unit := do
  let fuel ← elements.bound
  match ← pull elements with
  | (none, _) => scan body name
  | (some element, rest) =>
    Run.inScope (.caching []) (each body name separator muted fuel true element rest)

/-- Writes the body for all elements of a sequence, and closes the sequence whatever happens
(`write_sequence`).  A failure of the body comes before one of closing. -/
def sequence (name : String) (separator : Option String) (muted : Bool) (elements : Elements) :
    Run σ Unit := do
  Run.notice (.reached elements)
  let written ← ExceptT.lift (iterated body name separator muted elements).run
  let closing ← elements.close
  Run.notice (.closed written closing)
  liftExcept written
  Run.answered closing
where
  /-- Ends as another computation has ended. -/
  liftExcept : Except Halt Unit → Run σ Unit
    | .ok () => pure ()
    | .error e => throw e

/-- Writes a repeating section (`write_repeating`). -/
def repeating (m : Marker) (muted : Bool) (v : Value) : Run σ Unit :=
  Run.inSection m.name do
    match v.lookup (pathOf m.name) with
    | none | some .null => scan body m.name
    | some found =>
      match elements? found with
      | some elements => sequence body m.name m.separator muted elements
      | none => Run.fail (.invalidSection m.name)

/-- Whether a value counts as true in `write_conditional`: null and the truth value false do not,
nor do sequences without elements. -/
def holds : Option Value → Run σ Bool
  | none | some .null => pure false
  | some (.scalar (.bool b)) => pure b
  | some v =>
    match elements? v with
    | some elements => do
      Run.notice (.testing elements)
      Run.answered (← elements.nonempty)
    | none => pure true

/-- Writes a conditional section for the value it tests, or an inverted section for the dictionary
around it (`write_conditional`). -/
def conditional (m : Marker) (inverted muted : Bool) (v : Value) : Run σ Unit :=
  Run.inSection m.name do
    let found := v.lookup (pathOf m.name)
    match ← holds found, inverted, found with
    | true, false, some value => closed body m.name muted value.asDictionary
    | false, true, _ => closed body m.name muted v
    | _, _, _ => scan body m.name

/-! ## Included templates -/

/-- Takes a reader that is kept out of the innermost scope, as `write_include` starts. -/
def takeReader (name : String) : Run σ (Option Reader) := fun s =>
  match s.scopes with
  | .caching readers :: scopes =>
    (.ok (Fields.get? name readers),
      { s with scopes := .caching (readers.filter (·.1 ≠ name)) :: scopes })
  | _ => (.ok none, s)

/-- Keeps a reader in the innermost scope, as `write_include` ends. -/
def keepReader (name : String) (r : Reader) : Run σ Unit := modify fun s =>
  match s.scopes with
  | .caching readers :: scopes =>
    { s with scopes := .caching (Fields.put name r readers) :: scopes }
  | _ => s

/-- Gets a reader for an included template, given the one that is kept for it. -/
abbrev Opener (σ : Type) := (resolved : String) → (kept : Option Reader) → Run σ Reader

/-- Takes the reader that is kept, back at its start, or a new one. -/
def reopen : Opener σ
  | _, some r => pure r.reset
  | resolved, none => do
    Run.notice (.opening resolved)
    Run.openReader .includeNotFound resolved

/-- Writes the template of another reader, with no section open, and gives the reader back: the core
of `write_include`. -/
def inTemplate (resolved : String) (reader : Reader) (muted : Bool) (v : Value) :
    Run σ Reader := do
  let outer ← get
  set { outer with reader := reader, sections := [], active := resolved :: outer.active }
  discard (body muted v)
  let inner ← get
  set { inner with reader := outer.reader, sections := outer.sections, active := outer.active }
  pure inner.reader

variable (opener : Opener σ)

/-- Writes an included template, and keeps its reader: `write_include` outside of bodies that are
only scanned. -/
def entering (job : Job) (name : String) (muted : Bool) (v : Value) : Run σ Unit := do
  let kept ← takeReader name
  let resolved := resolveRelative job.template name
  if (← get).active.contains resolved then Run.fail (.recursiveInclude name)
  else
    let reader ← opener resolved kept
    Run.notice (.supplied name kept.isSome)
    let reader ← inTemplate body resolved reader muted v
    keepReader name reader

/-- Writes an included template, unless bodies are only scanned (`write_include`). -/
def included (job : Job) (name : String) (muted : Bool) (v : Value) : Run σ Unit := do
  Run.notice (.reaching name)
  match (← get).scopes with
  | .discarding :: _ => pure ()
  | _ => entering body opener job name muted v

/-! ## Bodies -/

/-- Where a section ends: the innermost open section must have the name of the end marker (the case
of `SectionEnd` in `write_template`). -/
def sectionEnd (name : String) : Run σ Exit := do
  match (← get).sections with
  | [] => Run.fail (.unmatchedSectionEnd name)
  | opened :: _ =>
    if opened = name then pure .sectionEnd else Run.fail (.invalidClosingSection opened name)

/-- Carries out a marker, by the cases of `write_template`; an exit when it ends the body. -/
def obey (job : Job) (muted : Bool) (v : Value) (m : Marker) : Run σ (Option Exit) := do
  match m.kind with
  | .comment => pure none
  | .variable => substitute job muted v m; pure none
  | .repeating => repeating body m muted v; pure none
  | .conditional => conditional body m false muted v; pure none
  | .inverted => conditional body m true muted v; pure none
  | .include => included body opener job m.name muted v; pure none
  | .sectionEnd => some <$> sectionEnd m.name

/-- One round of `write_template`: copies text up to the next marker and carries it out; `body` goes
on behind it. -/
def step (job : Job) (muted : Bool) (v : Value) : Run σ Exit := do
  match ← Run.copyText muted ((← get).reader.charsLeft + 1) with
  | none => pure .endOfText
  | some m =>
    match ← obey body opener job muted v m with
    | some exit => pure exit
    | none => body muted v

end

/-- Writes the template of the reader from where it stands, for a dictionary (`write_template`). -/
def write (job : Job) : Nat → (muted : Bool) → Value → Run σ Exit
  | 0, _, _ => throw .exhausted
  | fuel + 1, muted, v => step (write job fuel) reopen job muted v

/-- Fuel for templates of a loader: a template has fewer markers than characters, and no template is
read inside itself, so that there are at most as many templates at once as there are markers that
name them, and one. -/
def fuelFor (loader : Loader) : Nat := (loader.size + 2) * (loader.size + 2)

end Body

end Stencil
