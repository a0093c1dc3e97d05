import Stencil.Proofs.Render.Pace
import Mathlib.Data.List.Dedup

/-!
# Renders that keep a ledger

A ledger is kept next to a sink, which is told of scopes and of included templates.  The scopes of a
render are numbered as they are entered: the root, and each entry into a section over elements.
A body that is only scanned is a scope without a number, and conditional sections and included
templates are no scopes at all.  The ledger tells which included templates have been reached in which
scope, and which have been opened there.

- `Ledger`: a sink with such a ledger;
- `Ledger.opens`, `Ledger.scopesReaching`: how often a name has been opened, and in how many scopes
  it has been reached;
- `Template.ledgered`: a render that keeps a ledger.
-/

namespace Stencil

open Body

variable {σ α : Type}

/-! ## Ledgers -/

/-- A sink, and a ledger of scopes and included templates. -/
structure Ledger (σ : Type) where
  sink : σ
  /-- The number of the scope that is entered next. -/
  next : Nat
  /-- The scopes around, the innermost first; a body that is only scanned has no number. -/
  inside : List (Option Nat)
  /-- The markers for included templates that have been reached: the scope and the name. -/
  reached : List (Nat × String)
  /-- The included templates that have been opened. -/
  opened : List (Nat × String)

instance [Sink σ] : Sink (Ledger σ) where
  write l text := { l with sink := Sink.write l.sink text }
  failed l := Sink.failed l.sink

namespace Ledger

/-- An empty ledger.  The root is the scope that is entered first. -/
def ofSink (sink : σ) : Ledger σ := ⟨sink, 0, [], [], []⟩

/-- The scope of a marker; none inside a body that is only scanned. -/
def scope? (l : Ledger σ) : Option Nat :=
  if none ∈ l.inside then none else l.inside.head?.join

/-- A scope is entered. -/
def enter (scope : Scope) (l : Ledger σ) : Ledger σ :=
  match scope with
  | .caching _ => { l with next := l.next + 1, inside := some l.next :: l.inside }
  | .discarding => { l with inside := none :: l.inside }

/-- The innermost scope is left. -/
def leave (l : Ledger σ) : Ledger σ := { l with inside := l.inside.tail }

/-- A marker for an included template is reached. -/
def reach (name : String) (l : Ledger σ) : Ledger σ :=
  { l with reached := l.scope?.toList.map (·, name) ++ l.reached }

/-- An included template has been opened. -/
def noteOpened (name : String) (l : Ledger σ) : Ledger σ :=
  { l with opened := l.scope?.toList.map (·, name) ++ l.opened }

/-- How often included templates have been opened for markers with this name. -/
def opens (l : Ledger σ) (name : String) : Nat := l.opened.countP (·.2 = name)

/-- The number of scopes in which a marker with this name has been reached. -/
def scopesReaching (l : Ledger σ) (name : String) : Nat :=
  ((l.reached.filter (·.2 = name)).map (·.1)).dedup.length

end Ledger

instance : Observer (Ledger σ) where
  notice
    | .entering scope, l => l.enter scope
    | .leaving, l => l.leave
    | .reaching name, l => l.reach name
    | .supplied name kept, l => if kept then l else l.noteOpened name
    | _, l => l

/-- The state without the ledger. -/
def State.forget (s : State (Ledger σ)) : State σ := s.withSink s.sink.sink

/-- What a render that keeps a ledger has come to, without the ledger. -/
def Rendered.withoutLedger (r : Rendered (Ledger σ)) : Rendered σ := r.withSink r.sink.sink

/-- A render that keeps a ledger. -/
def Template.ledgered [Sink σ] (t : Template) (o : RenderOptions) (v : Value) (start : Rendered σ) :
    Except Halt Unit × Rendered (Ledger σ) :=
  t.write o v (start.withSink (Ledger.ofSink start.sink))

end Stencil
