import Stencil.Data.Streams
import Stencil.Modifier.Registry
import Stencil.Output.Sink
import Stencil.Render.Bundle
import Stencil.Render.Marker
import Stencil.Value.Basic

/-!
# The state of a render

A render reads a template once, from left to right, and writes as it reads.  `Run` is a computation
over all that changes on the way, and it may end early.

* `Job`: what is asked for, and stays the same;
* `State`: the sink, the reader of the innermost template, the single-pass sequences, the loader,
  the included templates that can be read again, the open sections and the templates being read;
* `Run`: computations; the state that is reached remains when a computation ends early;
* `Occasion`, `Observer`: what a render does besides writing, and sinks that are told of it;
* `copyText`: copies text up to the next marker.
-/

namespace Stencil

/-- What a render is asked for, which is the part of `Render` that stays the same: the name of its
template, modifiers, the modifier behind all others, settings, texts if they are given, and
variables. -/
structure Job where
  template : String
  registry : Registry
  defaultModifier : Option String
  settings : Settings
  bundle : Option Bundle
  context : List (String × Scalar)

/-- The name of a template without its extension; the texts of the template are found by it. -/
def bundleBase (template : String) : String :=
  match Text.splitLast '.' template.toList with
  | some (base, extension) => if extension.contains '/' then template else String.ofList base
  | none => template

/-- What becomes of included templates: their readers are kept to be read again, or they are left
out (`IncludeScope`). -/
inductive Scope where
  | caching (readers : List (String × Reader))
  | discarding

/-- What changes during a render, which is the rest of `Render`, with the reader and the sink that
its functions pass on.  Scopes, sections and the names of the templates being read are stacks, the
innermost first (`includes`, `sections`, `active_includes`); the texts are known once they have been
looked for. -/
structure State (σ : Type) where
  sink : σ
  reader : Reader
  streams : Streams
  shelf : Shelf
  bundle : Option (Option Bundle)
  scopes : List Scope
  sections : List String
  active : List String

/-- Why a computation ends early: a failure, or the end of its fuel. -/
inductive Halt where
  | failed (e : RenderError)
  | exhausted
  deriving DecidableEq

/-- The elements of a sequence that are left.  Those of a list, and of a series, are all known. -/
inductive Body.Elements where
  | list (items : List (Except DataError Value))
  | stream (id : Nat)

/-! ## Occasions

A sink may be told what a render does besides writing to it, in the order in which it happens.  No
sink listens by itself, and then nothing is different; one that keeps a journal for a proof does. -/

/-- What a render does besides writing. -/
inductive Occasion where
  /-- A scope is entered. -/
  | entering (scope : Scope)
  /-- A scope is left, with what was to be done in it done. -/
  | leaving
  /-- The texts of the template are asked for, and perhaps looked for. -/
  | consulting
  /-- A marker for an included template is reached. -/
  | reaching (name : String)
  /-- An included template is opened. -/
  | opening (resolved : String)
  /-- There is a reader for an included template, which has been kept or is new. -/
  | supplied (name : String) (kept : Bool)
  /-- A sequence is tested. -/
  | testing (elements : Body.Elements)
  /-- A repeating section has come to its sequence. -/
  | reached (elements : Body.Elements)
  /-- The sequence of the innermost repeating section is asked for its next element. -/
  | pulling
  /-- It has answered. -/
  | pulled (following : Option (Except DataError Value))
  /-- It has been closed: what the section has come to before, and what closing answers. -/
  | closed (written : Except Halt Unit) (closing : Except DataError Unit)

/-- What becomes of a sink that is told of an occasion. -/
class Observer (σ : Type) where
  notice : Occasion → σ → σ

/-- A sink that does not listen, as none does by itself. -/
instance (priority := low) Observer.silent {σ : Type} : Observer σ where
  notice _ w := w

/-- The state behind an occasion. -/
def State.told {σ : Type} [Observer σ] (s : State σ) (occasion : Occasion) : State σ :=
  { s with sink := Observer.notice occasion s.sink }

/-- Computations over the state of a render. -/
abbrev Run (σ α : Type) := ExceptT Halt (StateM (State σ)) α

namespace Run

variable {σ : Type}

/-- Ends with a failure. -/
def fail {α : Type} (e : RenderError) : Run σ α := throw (.failed e)

/-- Sends a request to the single-pass sequences; its own failure is part of the answer. -/
def request {α : Type} (send : Streams → α × Streams) : Run σ α := fun s =>
  let (answer, streams) := send s.streams
  (.ok answer, { s with streams := streams })

/-- The answer to a request that must not fail. -/
def answered {α : Type} : Except DataError α → Run σ α
  | .ok a => pure a
  | .error e => fail (.source e)

/-- The next character of the template, or nothing at its end (`read`). -/
def readChar : Run σ (Option Char) := fun s =>
  match s.reader.read with
  | (.ok c, r) => (.ok c, { s with reader := r })
  | (.error e, r) => (.error (.failed (.io e)), { s with reader := r })

/-- The marker behind two opening braces. -/
def readMarker : Run σ Marker := fun s =>
  match Marker.read s.reader with
  | (.ok m, r) => (.ok m, { s with reader := r })
  | (.error e, r) => (.error (.failed e), { s with reader := r })

/-- Opens a resource; `absent` is the failure when there is none (`open`). -/
def openReader (absent : String → RenderError) (name : String) : Run σ Reader := fun s =>
  match s.shelf.openNamed name with
  | (.ok source, shelf) => (.ok (Reader.ofSource source), { s with shelf := shelf })
  | (.error e, shelf) =>
    let reported := if e.kind = .notFound then absent name else .io e
    (.error (.failed reported), { s with shelf := shelf })

/-- The texts of the template: those that are given, or those that the loader has (`bundle`). -/
def texts (job : Job) : Run σ (Option Bundle) := fun s =>
  match s.bundle with
  | some found => (.ok found, s)
  | none =>
    match job.bundle with
    | some given => (.ok (some given), { s with bundle := some (some given) })
    | none =>
      match s.shelf.bundle (bundleBase job.template) job.settings.locale with
      | (.ok found, shelf) => (.ok found, { s with shelf := shelf, bundle := some found })
      | (.error e, shelf) => (.error (.failed (.io e)), { s with shelf := shelf })

/-- Tells the sink of an occasion. -/
def notice [Observer σ] (occasion : Occasion) : Run σ Unit := modify (·.told occasion)

/-- Carries out a computation in a scope of its own, pushed on `includes` and taken off again. -/
def inScope [Observer σ] {α : Type} (scope : Scope) (act : Run σ α) : Run σ α := do
  notice (.entering scope)
  modify fun s => { s with scopes := scope :: s.scopes }
  let a ← act
  modify fun s => { s with scopes := s.scopes.tail }
  notice .leaving
  pure a

/-- Carries out a computation inside a section, pushed on `sections` and taken off again. -/
def inSection {α : Type} (name : String) (act : Run σ α) : Run σ α := do
  modify fun s => { s with sections := name :: s.sections }
  let a ← act
  modify fun s => { s with sections := s.sections.tail }
  pure a

/-! ## Writing

While a body is only scanned the render is muted: nothing is written, and the sink is not asked. -/

variable [Sink σ]

/-- Writes a text (`write_str`). -/
def emit (muted : Bool) (text : String) : Run σ Unit :=
  if muted then pure () else modify fun s => { s with sink := Sink.write s.sink text }

/-- Ends the render when the sink has failed (`has_error`). -/
def checkSink (muted : Bool) : Run σ Unit := do
  if !muted && Sink.failed (← get).sink then fail .sinkFailed

/-- Copies text up to the next marker and reads the marker, as each round of `write_template`
starts; nothing at the end of the template.  Each step reads one of the `fuel` characters that are
left, or finds the end. -/
def copyText (muted : Bool) : Nat → Run σ (Option Marker)
  | 0 => throw .exhausted
  | fuel + 1 => do
    checkSink muted
    match ← readChar with
    | none => pure none
    | some c =>
      if c = '{' then
        match ← readChar with
        | none =>
          emit muted "\x7b"
          pure none
        | some c =>
          if c = '{' then some <$> readMarker
          else
            emit muted "\x7b"
            emit muted (String.singleton c)
            copyText muted fuel
      else
        emit muted (String.singleton c)
        copyText muted fuel

end Run

end Stencil
