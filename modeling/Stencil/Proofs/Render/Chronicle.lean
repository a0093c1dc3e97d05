import Stencil.Proofs.Render.Pace

/-!
# Renders that keep a chronicle

A chronicle is kept next to a sink, which is told of all that is asked of sequences.  It tells that
and what is written, one entry behind the other: each repeating section that reaches a sequence
iterates over it under a number of its own, so that the requests of one section can be told from
those of another one over the same sequence.

- `Iteration`, `Entry`: what a chronicle tells;
- `LeadsTo`: what the entries do to a sink and to the single-pass sequences;
- `Chronicle`: a sink with a chronicle, and the sections whose sequences are not closed yet;
- `Template.chronicled`: a render that keeps a chronicle.
-/

namespace Stencil

open Body

variable {σ : Type}

/-! ## Events -/

/-- Where the elements of a section come from. -/
inductive Provenance where
  /-- They are at hand.  Of the failures that stand in the place of elements, the first one is
  known. -/
  | atHand (failure : Option DataError)
  /-- A single-pass sequence gives them. -/
  | stream (id : Nat)
  deriving DecidableEq

/-- The iteration of a section over a sequence: its number, and where the elements come from. -/
structure Iteration where
  number : Nat
  origin : Provenance
  deriving DecidableEq

/-- What a render does with its sink and with sequences. -/
inductive Entry where
  /-- A text is written. -/
  | wrote (text : String)
  /-- A single-pass sequence is asked whether it has an element, to test it. -/
  | asked (id : Nat)
  /-- A repeating section reaches its sequence. -/
  | reached (i : Iteration)
  /-- The sequence is asked for its next element, and may fail. -/
  | pulled (i : Iteration) (failure : Option DataError)
  /-- The sequence is closed: what the section has come to before, and what closing answers. -/
  | closed (i : Iteration) (written : Except Halt Unit) (closing : Except DataError Unit)
  deriving DecidableEq

namespace Entry

/-- The iteration that an entry belongs to. -/
def iteration? : Entry → Option Iteration
  | .wrote _ | .asked _ => none
  | .reached i | .pulled i _ | .closed i _ _ => some i

/-- The failure that asking for the next element comes to. -/
def failure? : Option (Except DataError Value) → Option DataError
  | some (.error e) => some e
  | _ => none

theorem failure?_eq_some {following : Option (Except DataError Value)} {e : DataError}
    (h : failure? following = some e) : following = some (.error e) := by
  unfold failure? at h
  split at h
  · rw [Option.some.inj h]
  · cases h

end Entry

namespace Provenance

/-- The failure that asking for the next element comes to: that of the single-pass sequence, or the
first one of those at hand. -/
def Fails (failure : Option DataError) (streams : Streams) : Provenance → Prop
  | .atHand first => ∀ e, failure = some e → first = some e
  | .stream id => ∀ e, failure = some e ↔ (streams.next id).1 = .error e

/-- The single-pass sequences behind asking for the next element. -/
def next : Provenance → Streams → Streams
  | .atHand _, streams => streams
  | .stream id, streams => (streams.next id).2

/-- What closing a sequence asks of the single-pass sequences. -/
def close : Provenance → Streams → Except DataError Unit × Streams
  | .atHand _, streams => (.ok (), streams)
  | .stream id, streams => streams.close id

end Provenance

namespace Entry

/-- The single-pass sequences behind an entry. -/
def streams : Entry → Streams → Streams
  | .wrote _, S | .reached _, S => S
  | .asked id, S => (S.hasNext id).2
  | .pulled i _, S => i.origin.next S
  | .closed i _ _, S => (i.origin.close S).2

/-- The sink behind an entry. -/
def sink [Sink σ] : Entry → σ → σ
  | .wrote text, w => Sink.write w text
  | _, w => w

/-- The answer to asking for an element, and the one to closing, are those of the sequence. -/
def Answered : Entry → Streams → Prop
  | .pulled i failure, S => i.origin.Fails failure S
  | .closed i _ closing, S => closing = (i.origin.close S).1
  | _, _ => True

end Entry

/-- The entries lead from one sink and the single-pass sequences to others: nothing else is written,
and nothing else is asked of these. -/
def LeadsTo [Sink σ] : List Entry → (σ × Streams) → (σ × Streams) → Prop
  | [], before, after => after = before
  | e :: es, before, after =>
    e.Answered before.2 ∧ LeadsTo es (e.sink before.1, e.streams before.2) after

theorem LeadsTo.append [Sink σ] {es fs : List Entry} {x y z : σ × Streams} (h : LeadsTo es x y)
    (h' : LeadsTo fs y z) : LeadsTo (es ++ fs) x z := by
  induction es generalizing x with
  | nil => exact h ▸ h'
  | cons e es ih => exact ⟨h.1, ih h.2⟩

/-! ## Chronicles -/

/-- The origin of the elements that are left. -/
def Body.Elements.origin : Elements → Provenance
  | .list items => .atHand (items.findSome? fun element => Entry.failure? (some element))
  | .stream id => .stream id

/-- A sink with a chronicle, the number of the iteration that begins next, and the iterations that
have begun and not ended, the innermost first. -/
structure Chronicle (σ : Type) where
  sink : σ
  next : Nat
  inside : List Iteration
  entries : List Entry

namespace Chronicle

/-- An empty chronicle. -/
def ofSink (sink : σ) : Chronicle σ := ⟨sink, 0, [], []⟩

/-- Notes an entry behind all others. -/
def note (e : Entry) (j : Chronicle σ) : Chronicle σ := { j with entries := j.entries ++ [e] }

/-- An iteration begins, with a number of its own. -/
def reach (origin : Provenance) (j : Chronicle σ) : Chronicle σ :=
  let i : Iteration := ⟨j.next, origin⟩
  { j.note (.reached i) with next := j.next + 1, inside := i :: j.inside }

/-- The sequence of the innermost iteration has been asked for its next element. -/
def pull (failure : Option DataError) (j : Chronicle σ) : Chronicle σ :=
  match j.inside with
  | i :: _ => j.note (.pulled i failure)
  | [] => j

/-- The sequence of the innermost iteration has been closed. -/
def close (written : Except Halt Unit) (closing : Except DataError Unit) (j : Chronicle σ) :
    Chronicle σ :=
  match j.inside with
  | i :: outer => { j.note (.closed i written closing) with inside := outer }
  | [] => j

end Chronicle

instance : Observer (Chronicle σ) where
  notice
    | .testing (.stream id), j => j.note (.asked id)
    | .reached elements, j => j.reach elements.origin
    | .pulled following, j => j.pull (Entry.failure? following)
    | .closed written closing, j => j.close written closing
    | _, j => j

instance [Sink σ] : Sink (Chronicle σ) where
  write j text := { j.note (.wrote text) with sink := Sink.write j.sink text }
  failed j := Sink.failed j.sink

/-- The state without the chronicle. -/
def State.unchronicled (s : State (Chronicle σ)) : State σ := s.withSink s.sink.sink

/-- What a render that keeps a chronicle has come to, without the chronicle. -/
def Rendered.withoutChronicle (r : Rendered (Chronicle σ)) : Rendered σ := r.withSink r.sink.sink

/-- A render that keeps a chronicle. -/
def Template.chronicled [Sink σ] (t : Template) (o : RenderOptions) (v : Value)
    (start : Rendered σ) : Except Halt Unit × Rendered (Chronicle σ) :=
  t.write o v (start.withSink (Chronicle.ofSink start.sink))

end Stencil
