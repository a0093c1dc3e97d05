/-!
# Sinks

A sink takes the text that is written, piece after piece.  Writing itself never fails: a sink that
can take no more says so when it is asked.

* `Sink`: what a sink can be asked for;
* `String`, `Null`, `Transcript`: sinks that never fail, which keep the text, nothing, or the list of
  pieces;
* `Limited`: a sink with room for a number of characters.
-/

namespace Stencil

/-- A destination for text. -/
class Sink (σ : Type) where
  /-- Takes one piece of text. -/
  write : σ → String → σ
  /-- Whether a write has failed. -/
  failed : σ → Bool

instance : Sink String where
  write := String.append
  failed _ := false

/-- A sink that forgets all text (`NullSink`). -/
inductive Null where
  | null

instance : Sink Null where
  write s _ := s
  failed _ := false

/-- The pieces that have been written, the latest first. -/
structure Transcript where
  pieces : List String

instance : Sink Transcript where
  write s text := ⟨text :: s.pieces⟩
  failed _ := false

/-- A sink with room for `room` more characters.  The first piece that does not fit breaks it for
good. -/
structure Limited where
  written : String
  room : Nat
  broken : Bool

/-- An empty sink with room for `limit` characters. -/
def Limited.ofLimit (limit : Nat) : Limited := ⟨"", limit, false⟩

instance : Sink Limited where
  write s text :=
    if s.broken then s
    else if text.length ≤ s.room then ⟨s.written ++ text, s.room - text.length, false⟩
    else { s with broken := true }
  failed s := s.broken

end Stencil
