import Stencil.Proofs.Input.Utf8
import Stencil.Proofs.Output.Logged
import Stencil.Proofs.Render.Pace

/-!
# Renders into writers and into strings

A template can be written into a string or, as bytes, to a writer.  The writer is behind a buffer, so
that a failure comes some time after the text it is about; until then the two renders are the same,
and from then on only the one into the string goes on.

- `Buffered.Holds`: what has become of the bytes that a buffered sink has been given;
- `Coupling.buffered`: strings and buffered sinks go along until a write fails;
- `Template.writeTo_delivers`: **the two renders agree**, unless a call of the writer fails, and of a
  write that fails during the render the failure is reported.
-/

namespace Stencil

open Logged

/-- The bytes of a text. -/
def utf8 (text : String) : List UInt8 := text.toUTF8.data.toList

theorem utf8_append (text more : String) : utf8 (text ++ more) = utf8 text ++ utf8 more := by
  rw [utf8, utf8, utf8, Utf8.toUTF8_eq_encode, Utf8.toUTF8_eq_encode, Utf8.toUTF8_eq_encode,
    String.toList_append, Utf8.encode, List.flatMap_append, Utf8.encode, Utf8.encode]

variable {ω : Type}

namespace Buffered

/-- A sink that has been given `bytes`: they have been received, are buffered, or have been `lost`,
in this order, and the failure that is kept is the only one of the writer. -/
structure Holds (x : Buffered (Logged ω)) (bytes lost : List UInt8) : Prop where
  bytes : x.writer.received ++ (x.buffer.toList ++ lost) = bytes
  failures : List.Forall₂ WriterCall.Fails x.writer.failures x.error.toList

theorem Holds.start (w : ω) : (ofWriter (Logged.start w)).Holds (utf8 "") [] where
  bytes := by simp [ofWriter, Logged.received, Logged.start, utf8]
  failures := .nil

variable {x : Buffered (Logged ω)} {text : String}

/-- The sink holds all of a text. -/
def Level (text : String) (x : Buffered (Logged ω)) : Prop :=
  x.error = none ∧ x.Holds (utf8 text) []

/-- The sink has failed, and holds the beginning of a text. -/
def Behind (text : String) (x : Buffered (Logged ω)) : Prop :=
  x.error ≠ none ∧ ∃ lost, x.Holds (utf8 text) lost

/-- More text behind a failure is lost. -/
theorem Behind.more (h : Behind text x) (more : String) : Behind (text ++ more) x := by
  obtain ⟨hx, lost, hbytes, hfailures⟩ := h
  refine ⟨hx, lost ++ utf8 more, ?_, hfailures⟩
  rw [utf8_append, ← hbytes, List.append_assoc, List.append_assoc]

variable [RawWriter ω]

theorem Behind.write (h : Behind text x) (more : String) :
    Behind (text ++ more) (Sink.write x more) := by
  rw [show Sink.write x more = x from if_pos (Option.isSome_iff_ne_none.mpr h.1)]
  exact h.more more

/-- A sink that holds all of a text holds all of it with more, unless a write fails. -/
theorem Level.write (h : Level text x) (more : String) :
    Level (text ++ more) (Sink.write x more) ∨ Behind (text ++ more) (Sink.write x more) := by
  obtain ⟨hx, h⟩ := h
  obtain ⟨result, y, lost, heq, hpasses, hok⟩ := x.writeBytes_passes more.toUTF8.data
  have hbytes : y.writer.received ++ (y.buffer.toList ++ lost) = utf8 (text ++ more) := by
    rw [hpasses.1.received_append, utf8_append, ← h.bytes, List.append_nil, List.append_assoc]
    rfl
  have hfailures := hpasses.1.failures_append h.failures
  rw [hx, Option.toList_none, List.nil_append] at hfailures
  simp only [Sink.write, hx, heq]
  cases result with
  | error e => exact .inr ⟨nofun, lost, hbytes, hfailures⟩
  | ok _ =>
    have hy : y.error = none := hpasses.2.trans hx
    rw [hok rfl] at hbytes
    refine .inl ⟨hy, hbytes, ?_⟩
    show List.Forall₂ _ _ y.error.toList
    rw [hy]
    exact hfailures

/-! ## Giving up a sink -/

/-- What is still buffered is written as far as it can be. -/
theorem drop_sends (x : Buffered (Logged ω)) :
    ∃ left errors, Sends x.writer x.drop x.buffer.toList left errors ∧
      (errors = [] → left = []) := by
  obtain ⟨result, y, heq, hpasses, hok⟩ := x.flushBuffer_passes
  refine ⟨y.buffer.toList, reported result, ?_, ?_⟩
  · rw [drop, heq]
    simpa using hpasses.1
  · cases result with
    | error e => exact nofun
    | ok _ =>
      intro _
      rw [hok rfl]

theorem drop_of_empty (hx : x.buffer = #[]) : x.drop = x.writer := by
  rw [drop, flushBuffer, hx]
  rfl

/-- A sink is flushed and then given up.  When the flush succeeds, nothing is left to be written. -/
theorem flush_sends (hx : x.error = none) :
    ∃ result y, x.flush = (result, y) ∧ ∃ left errors,
      Sends x.writer y.drop x.buffer.toList left errors ∧ (errors = [] → left = []) ∧
        (result = .ok () ↔ errors = []) := by
  obtain ⟨result, y, heq, hpasses, hok⟩ := x.flushBuffer_passes
  have hsends := hpasses.1
  rw [List.append_nil, List.append_nil] at hsends
  rw [flush, hx, heq]
  cases result with
  | error e =>
    obtain ⟨left, errors, hdrop, -⟩ := y.drop_sends
    exact ⟨.error e, y, rfl, left, _, hsends.trans hdrop, nofun, nofun, nofun⟩
  | ok _ =>
    have hbuffer : y.buffer = #[] := hok rfl
    rw [hbuffer] at hsends
    have hflush := hsends.trans (Logged.flush_sends y.writer)
    dsimp only
    generalize ByteWriter.flush y.writer = called at hflush
    obtain ⟨answer, u⟩ := called
    refine ⟨answer, { y with writer := u }, rfl, [], reported answer, ?_, fun _ => rfl, ?_⟩
    · rw [drop_of_empty (x := { y with writer := u }) hbuffer]
      exact hflush
    · cases answer with
      | ok _ => exact ⟨fun _ => rfl, fun _ => rfl⟩
      | error e => exact ⟨nofun, nofun⟩

end Buffered

/-! ## The two sinks -/

/-- A string and a buffered sink go along, until a write fails. -/
def Coupling.buffered (ω : Type) [RawWriter ω] : Coupling String (Buffered (Logged ω)) where
  level := Buffered.Level
  broken := Buffered.Behind
  ahead := Buffered.Behind
  failed_level := by
    rintro text x ⟨hx, -⟩
    show false = x.error.isSome
    rw [hx]
    rfl
  failed_broken := by
    rintro text x ⟨hx, -⟩
    exact Option.isSome_iff_ne_none.mpr hx
  write more h := h.write more
  brace c h := by
    rcases h.write "\x7b" with h | h
    · exact h.write _
    · exact .inr (h.write _)
  notice _ h := h
  leaving h := h
  ahead_broken h := h
  ahead_write more h := h.more more
  ahead_notice _ h := h
  ahead_closed _ _ h := h

/-! ## Behind the render -/

namespace Template

section

variable [ByteWriter ω]

/-- What a render into a writer comes to, when it has come to `answer` and has left a sink: a failure
that is kept comes first, and a sink without one is flushed behind a render that has not failed. -/
def deliver (answer : Except Halt Unit) (x : Buffered ω) : Except Halt Unit × ω :=
  match x.error, answer with
  | some e, _ => (.error (.failed (.io e)), x.drop)
  | none, .error halt => (.error halt, x.drop)
  | none, .ok () =>
    match x.flush with
    | (.ok (), y) => (.ok (), y.drop)
    | (.error e, y) => (.error (.failed (.io e)), y.drop)

theorem writeTo_eq_deliver (t : Template) (o : RenderOptions) (v : Value) (start : Rendered ω) :
    let into : Rendered (Buffered ω) := ⟨.ofWriter start.sink, start.streams, start.shelf⟩
    t.writeTo o v start =
      ((deliver (t.write o v into).1 (t.write o v into).2.sink).1,
        ⟨(deliver (t.write o v into).1 (t.write o v into).2.sink).2,
          (t.write o v into).2.streams, (t.write o v into).2.shelf⟩) := by
  intro into
  unfold writeTo deliver
  dsimp only
  generalize t.write o v into = rendered
  obtain ⟨answer, ⟨writer, buffer, error⟩, streams, shelf⟩ := rendered
  cases error with
  | some e => rfl
  | none =>
    cases answer with
    | error halt => rfl
    | ok _ =>
      dsimp only [Buffered.takeError]
      generalize Buffered.flush (⟨writer, buffer, none⟩ : Buffered ω) = flushed
      obtain ⟨result, y⟩ := flushed
      cases result <;> rfl

end

variable [RawWriter ω]

/-- What has been delivered, when a render into a string has come to `answer` and has written
`text`, and a render into a writer has left the sink `x`. -/
structure Delivered (answer : Except Halt Unit) (text : String) (x : Buffered (Logged ω))
    (done : Except Halt Unit × Logged ω) : Prop where
  ok : done.1 = .ok () → answer = .ok () ∧ done.2.received = utf8 text
  log_prefix : x.writer.log <+: done.2.log
  reported : ∀ c ∈ x.writer.log, c.failed = true →
    ∃ e, c.Fails e ∧ done.1 = .error (.failed (.io e))
  received_prefix : done.2.received <+: utf8 text
  unfailing : (∀ c ∈ done.2.log, c.failed = false) →
    done.1 = answer ∧ done.2.received = utf8 text

/-- A failure that is kept is reported, and the rest of the text is lost. -/
theorem deliver_behind {text : String} {x : Buffered (Logged ω)} (h : Buffered.Behind text x)
    (answer answer' : Except Halt Unit) : Delivered answer text x (deliver answer' x) := by
  obtain ⟨hx, lost, hbytes, hfailures⟩ := h
  obtain ⟨e, he⟩ := Option.ne_none_iff_exists'.mp hx
  obtain ⟨left, errors, hdrop, -⟩ := x.drop_sends
  have hdeliver : deliver answer' x = (.error (.failed (.io e)), x.drop) := by
    unfold deliver
    rw [he]
  have hreceived : x.drop.received ++ (left ++ lost) = utf8 text := by
    rw [← List.append_assoc, hdrop.received_append, List.append_assoc, hbytes]
  rw [he] at hfailures
  rw [hdeliver]
  constructor
  case ok => exact nofun
  case log_prefix => exact hdrop.log_prefix
  case reported =>
    intro c hc hfailed
    exact ⟨e, fails_of_mem hfailures hc hfailed, rfl⟩
  case received_prefix => exact ⟨_, hreceived⟩
  case unfailing =>
    intro hnone
    have hnil : x.writer.failures = [] :=
      failures_eq_nil_iff.mpr fun c hc => hnone c (hdrop.log_prefix.subset hc)
    rw [hnil] at hfailures
    cases hfailures

/-- Behind a sink without a failure, calls lead on to the writer, and the result tells whether one of
them has failed. -/
theorem deliver_sends {x : Buffered (Logged ω)} (hx : x.error = none)
    (answer : Except Halt Unit) :
    ∃ result u left errors, deliver answer x = (result, u) ∧
      Sends x.writer u x.buffer.toList left errors ∧ (errors = [] → left = []) ∧
        (result = .ok () → answer = .ok () ∧ errors = []) ∧ (errors = [] → result = answer) := by
  unfold deliver
  rw [hx]
  cases answer with
  | error halt =>
    obtain ⟨left, errors, hdrop, hleft⟩ := x.drop_sends
    exact ⟨_, _, left, errors, rfl, hdrop, hleft, nofun, fun _ => rfl⟩
  | ok _ =>
    obtain ⟨result, y, heq, left, errors, hflush, hleft, hiff⟩ := Buffered.flush_sends hx
    dsimp only
    rw [heq]
    cases result with
    | ok _ =>
      exact ⟨_, _, left, errors, rfl, hflush, hleft, fun _ => ⟨rfl, hiff.mp rfl⟩, fun _ => rfl⟩
    | error e =>
      exact ⟨_, _, left, errors, rfl, hflush, hleft, nofun, fun h => nomatch hiff.mpr h⟩

/-- When no write has failed, the text is received as a whole, or a call behind the render fails. -/
theorem deliver_level {text : String} {x : Buffered (Logged ω)} (h : Buffered.Level text x)
    (answer : Except Halt Unit) : Delivered answer text x (deliver answer x) := by
  obtain ⟨hx, hbytes, hfailures⟩ := h
  obtain ⟨result, u, left, errors, hdeliver, hsends, hleft, hok, hresult⟩ :=
    deliver_sends hx answer
  rw [hx] at hfailures
  have hreceived : u.received ++ left = utf8 text := by
    rw [hsends.received_append, ← hbytes, List.append_nil]
  have hnofail : ∀ c ∈ x.writer.log, c.failed = false :=
    failures_eq_nil_iff.mp (List.forall₂_nil_right_iff.mp hfailures)
  have hall (herrors : errors = []) : u.received = utf8 text := by
    rw [← hreceived, hleft herrors, List.append_nil]
  rw [hdeliver]
  constructor
  case ok =>
    intro h
    exact ⟨(hok h).1, hall (hok h).2⟩
  case log_prefix => exact hsends.log_prefix
  case reported =>
    intro c hc hfailed
    rw [hnofail c hc] at hfailed
    contradiction
  case received_prefix => exact ⟨_, hreceived⟩
  case unfailing =>
    intro hnone
    have hfailures := hsends.failures_append hfailures
    rw [failures_eq_nil_iff.mpr hnone] at hfailures
    have herrors : errors = [] := List.forall₂_nil_left_iff.mp hfailures
    exact ⟨hresult herrors, hall herrors⟩

/-! ## Whole renders -/

/-- The two renders stay in pace, and what the one into a writer has come to is delivered. -/
theorem write_delivered (t : Template) (o : RenderOptions) (v : Value) (streams : Streams)
    (shelf : Shelf) (w : ω) :
    let into : Rendered (Buffered (Logged ω)) := ⟨.ofWriter (.start w), streams, shelf⟩
    let whole := t.write o v (⟨"", streams, shelf⟩ : Rendered String)
    Delivered whole.1 whole.2.sink (t.write o v into).2.sink
      (deliver (t.write o v into).1 (t.write o v into).2.sink) := by
  intro into whole
  have finish : Finish (Coupling.buffered ω) whole (t.write o v into) :=
    t.write_inPace o v ⟨rfl, .start w⟩
  generalize t.write o v into = y at finish
  generalize whole = x at finish
  cases finish with
  | level answer h => exact deliver_level h answer
  | ahead answer e h => exact deliver_behind h answer (.error e)

/-- **The renders into a writer and into a string agree.**  The writer may take any part of each
write, and may fail at any call.
- If the render into it succeeds, so does the one into a string, and the writer has received the
  bytes of the text.
- Of a write that fails during the render the failure is reported; one that is interrupted has not
  failed.
- The writer has received a beginning of the bytes of what the other render writes.
- If no call fails, both renders come to the same, and all bytes have been received. -/
theorem writeTo_delivers (t : Template) (o : RenderOptions) (v : Value) (streams : Streams)
    (shelf : Shelf) (w : ω) :
    let into : Rendered (Buffered (Logged ω)) := ⟨.ofWriter (.start w), streams, shelf⟩
    let during := (t.write o v into).2.sink.writer.log
    let written := (t.write o v (⟨"", streams, shelf⟩ : Rendered String)).2.sink
    let text := (t.writeString o v streams shelf).1
    let done := t.writeTo o v (⟨.start w, streams, shelf⟩ : Rendered (Logged ω))
    (done.1 = .ok () → ∃ s, text = .ok s ∧ done.2.sink.received = utf8 s) ∧
      (during <+: done.2.sink.log ∧ ∀ c ∈ during, c.failed = true →
        ∃ e, c.Fails e ∧ done.1 = .error (.failed (.io e))) ∧
      done.2.sink.received <+: utf8 written ∧
      ((∀ c ∈ done.2.sink.log, c.failed = false) →
        done.1 = text.map (fun _ => ()) ∧ done.2.sink.received = utf8 written) := by
  intro into during written text done
  have hdone : done = _ := t.writeTo_eq_deliver o v ⟨Logged.start w, streams, shelf⟩
  have htext : text = (t.write o v (⟨"", streams, shelf⟩ : Rendered String)).1.map
      fun _ => written := rfl
  obtain ⟨hok, hlog, hreported, hreceived, hunfailing⟩ := t.write_delivered o v streams shelf w
  rw [hdone, htext]
  refine ⟨?_, ⟨hlog, hreported⟩, hreceived, ?_⟩
  · intro h
    obtain ⟨hanswer, hall⟩ := hok h
    exact ⟨written, by rw [hanswer]; rfl, hall⟩
  · intro hnone
    obtain ⟨hanswer, hall⟩ := hunfailing hnone
    refine ⟨?_, hall⟩
    rw [hanswer]
    cases (t.write o v (⟨"", streams, shelf⟩ : Rendered String)).1 <;> rfl

/-- A writer that is interrupted, takes two bytes, and then fails. -/
example :
    let t : Template := ⟨"page", "text/plain", none, none⟩
    let o : RenderOptions := ⟨⟨.default, 0⟩, none, []⟩
    let w : Answering := ⟨[.error (.system .interrupted), .ok 2, .error (.system .brokenPipe)]⟩
    let done := t.writeTo o (.scalar (.text "")) (⟨.start w, ⟨[], []⟩,
      .ofLoader (.memory [("page", "hello")])⟩ : Rendered (Logged Answering))
    done.1 = .error (.failed (.io (.system .brokenPipe))) ∧
      done.2.sink.received = utf8 "hello" := by
  decide +kernel

end Template

end Stencil
