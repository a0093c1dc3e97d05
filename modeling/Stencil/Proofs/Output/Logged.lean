import Mathlib.Data.List.Forall2
import Stencil.Output.Buffered

/-!
# Writers with a log

A writer may take a part of what it is given, fail, or be interrupted; an interrupted write is made
again.  A logged writer notes every call with its answer, so that afterwards one can tell which bytes
have been received and which writes have failed.

- `RawWriter`: a writer whose writes may be interrupted; `Answering`: one with given answers;
- `WriterCall.Fails`: a call that has failed, with the failure that is reported of it;
- `Logged`: the writer with its log;
- `Logged.Sends`: what the calls between two logs come to;
- `Logged.writeAll_sends`: **bytes are taken in their order**, and a failure is reported of the one
  write that has failed;
- `Buffered.writeBytes_passes`: the same through a buffer.
-/

namespace Stencil

/-- A destination of bytes whose writes may be interrupted.  Such a write has taken nothing and can be
made again, and `patience` bounds how often this happens in a row. -/
class RawWriter (ω : Type) where
  write : ω → List UInt8 → Except IoError Nat × ω
  flush : ω → Except IoError Unit × ω
  patience : ω → List UInt8 → Nat
  patience_lt {w : ω} {bytes : List UInt8} {e : IoError} {w' : ω} :
    write w bytes = (.error e, w') → e.kind = .interrupted → patience w' bytes < patience w bytes

/-- A writer with its answers to the next writes.  Behind these it takes all that it is given. -/
structure Answering where
  answers : List (Except IoError Nat)

instance : RawWriter Answering where
  write w bytes :=
    match w.answers with
    | [] => (.ok bytes.length, w)
    | answer :: answers => (answer, ⟨answers⟩)
  flush w := (.ok (), w)
  patience w _ := w.answers.length
  patience_lt := by
    rintro ⟨answers⟩ bytes e w' h hi
    cases answers with
    | nil => cases h
    | cons answer answers =>
      cases h
      exact Nat.lt_succ_self _

/-- A call of a writer, with its answer. -/
inductive WriterCall where
  | wrote (bytes : List UInt8) (answer : Except IoError Nat)
  | flushed (answer : Except IoError Unit)

namespace WriterCall

/-- The bytes that have been taken. -/
def taken : WriterCall → List UInt8
  | .wrote bytes (.ok n) => bytes.take n
  | _ => []

/-- A call has failed.  An interrupted write has not, and a write that takes nothing has. -/
def failed : WriterCall → Bool
  | .wrote _ (.ok n) => n == 0
  | .wrote _ (.error e) => e.kind ≠ .interrupted
  | .flushed (.ok _) => false
  | .flushed (.error _) => true

/-- A failed call, and the failure that is reported of it. -/
inductive Fails : WriterCall → IoError → Prop where
  | refused {bytes : List UInt8} {e : IoError} (h : e.kind ≠ .interrupted) :
    Fails (.wrote bytes (.error e)) e
  | stuck {bytes : List UInt8} (message : String) :
    Fails (.wrote bytes (.ok 0)) (.of .writeZero message)
  | unflushed {e : IoError} : Fails (.flushed (.error e)) e

end WriterCall

/-- The failures that a result reports. -/
def reported : Except IoError Unit → List IoError
  | .ok _ => []
  | .error e => [e]

/-- A writer, and the calls that it has had. -/
structure Logged (ω : Type) where
  writer : ω
  log : List WriterCall

namespace Logged

variable {ω : Type}

/-- A writer that has had no call. -/
def start (w : ω) : Logged ω := ⟨w, []⟩

/-- All bytes that have been taken. -/
def received (s : Logged ω) : List UInt8 := s.log.flatMap WriterCall.taken

/-- The calls that have failed. -/
def failures (s : Logged ω) : List WriterCall := s.log.filter WriterCall.failed

theorem failures_eq_nil_iff {s : Logged ω} :
    s.failures = [] ↔ ∀ c ∈ s.log, c.failed = false := by
  simp [failures]

/-- There is one failed call, and this is it. -/
theorem fails_of_mem {s : Logged ω} {e : IoError} (h : List.Forall₂ WriterCall.Fails s.failures [e])
    {c : WriterCall} (hc : c ∈ s.log) (hfailed : c.failed = true) : c.Fails e := by
  have hmem : c ∈ s.failures := List.mem_filter.mpr ⟨hc, hfailed⟩
  generalize s.failures = calls at h hmem
  cases h with
  | cons hfails hnil =>
    cases hnil
    rw [List.mem_singleton.mp hmem]
    exact hfails

/-- The writer after one more call. -/
def after (s : Logged ω) (w : ω) (c : WriterCall) : Logged ω := ⟨w, s.log ++ [c]⟩

variable [RawWriter ω]

/-- Makes a write, and makes it again as long as it is interrupted. -/
def write (s : Logged ω) (bytes : List UInt8) : Except IoError Nat × Logged ω :=
  match _h : RawWriter.write s.writer bytes with
  | (.ok n, w) => (.ok n, s.after w (.wrote bytes (.ok n)))
  | (.error e, w) =>
    if _hi : e.kind = .interrupted then write (s.after w (.wrote bytes (.error e))) bytes
    else (.error e, s.after w (.wrote bytes (.error e)))
termination_by RawWriter.patience s.writer bytes
decreasing_by exact RawWriter.patience_lt _h _hi

instance : ByteWriter (Logged ω) where
  write := write
  flush s :=
    let (answer, w) := RawWriter.flush s.writer
    (answer, s.after w (.flushed answer))

omit [RawWriter ω]

/-- The calls from one log to another: all of `given` but what is `left` has been taken, and of the
calls that failed the failures `errors` are reported. -/
def Sends (s t : Logged ω) (given left : List UInt8) (errors : List IoError) : Prop :=
  ∃ calls, t.log = s.log ++ calls ∧ calls.flatMap WriterCall.taken ++ left = given ∧
    List.Forall₂ WriterCall.Fails (calls.filter WriterCall.failed) errors

namespace Sends

variable {s t u : Logged ω} {given left rest : List UInt8} {errors errors' : List IoError}

theorem refl (s : Logged ω) (given : List UInt8) : Sends s s given given [] :=
  ⟨[], (List.append_nil _).symm, rfl, .nil⟩

theorem trans (h : Sends s t given left errors) (h' : Sends t u left rest errors') :
    Sends s u given rest (errors ++ errors') := by
  obtain ⟨calls, hlog, htaken, hfails⟩ := h
  obtain ⟨calls', hlog', htaken', hfails'⟩ := h'
  refine ⟨calls ++ calls', ?_, ?_, ?_⟩
  · rw [hlog', hlog, List.append_assoc]
  · rw [List.flatMap_append, List.append_assoc, htaken', htaken]
  · rw [List.filter_append]
    exact List.rel_append hfails hfails'

/-- More bytes stand behind those that are written. -/
theorem behind (h : Sends s t given left errors) (more : List UInt8) :
    Sends s t (given ++ more) (left ++ more) errors := by
  obtain ⟨calls, hlog, htaken, hfails⟩ := h
  exact ⟨calls, hlog, by rw [← List.append_assoc, htaken], hfails⟩

theorem log_prefix (h : Sends s t given left errors) : s.log <+: t.log := by
  obtain ⟨calls, hlog, -, -⟩ := h
  exact ⟨calls, hlog.symm⟩

theorem received_append (h : Sends s t given left errors) :
    t.received ++ left = s.received ++ given := by
  obtain ⟨calls, hlog, htaken, -⟩ := h
  rw [received, hlog, List.flatMap_append, List.append_assoc, htaken, received]

theorem failures_append {before : List IoError} (h : Sends s t given left errors)
    (hs : List.Forall₂ WriterCall.Fails s.failures before) :
    List.Forall₂ WriterCall.Fails t.failures (before ++ errors) := by
  obtain ⟨calls, hlog, -, hfails⟩ := h
  rw [failures, hlog, List.filter_append]
  exact List.rel_append hs hfails

/-- One call that takes some bytes and does not fail. -/
theorem taking (s : Logged ω) (w : ω) {c : WriterCall} (hc : c.failed = false)
    (htaken : c.taken ++ left = given) : Sends s (s.after w c) given left [] := by
  refine ⟨[c], rfl, ?_, ?_⟩
  · rw [List.flatMap_singleton, htaken]
  · rw [List.filter_cons_of_neg (by simp [hc])]
    exact .nil

/-- One call that fails. -/
theorem failing (s : Logged ω) (w : ω) {c : WriterCall} {e : IoError} (h : c.Fails e) :
    Sends s (s.after w c) given given [e] := by
  have hc : c.failed = true ∧ c.taken = [] := by
    cases h with
    | refused h => exact ⟨decide_eq_true h, rfl⟩
    | stuck => exact ⟨rfl, rfl⟩
    | unflushed => exact ⟨rfl, rfl⟩
  refine ⟨[c], rfl, ?_, ?_⟩
  · rw [List.flatMap_singleton, hc.2, List.nil_append]
  · rw [List.filter_cons_of_pos hc.1]
    exact .cons h .nil

end Sends

variable [RawWriter ω]

/-- What a write comes to, with the interrupted ones before it. -/
inductive Attempt (s : Logged ω) (bytes : List UInt8) : Except IoError Nat × Logged ω → Prop where
  | took {t : Logged ω} (n : Nat) (h : Sends s t bytes (bytes.drop (n + 1)) []) :
    Attempt s bytes (.ok (n + 1), t)
  | stuck {t : Logged ω} (h : ∀ message, Sends s t bytes bytes [.of .writeZero message]) :
    Attempt s bytes (.ok 0, t)
  | refused {t : Logged ω} {e : IoError} (h : Sends s t bytes bytes [e]) :
    Attempt s bytes (.error e, t)

omit [RawWriter ω] in
/-- An interrupted write in front of an attempt. -/
theorem Attempt.after_interrupted {s t : Logged ω} {bytes : List UInt8}
    {x : Except IoError Nat × Logged ω} (h : Sends s t bytes bytes []) (ha : Attempt t bytes x) :
    Attempt s bytes x := by
  cases ha with
  | took n ht => exact .took n (h.trans ht)
  | stuck ht => exact .stuck fun message => h.trans (ht message)
  | refused ht => exact .refused (h.trans ht)

/-- By induction on the interruptions that may still come. -/
theorem write_attempt (s : Logged ω) (bytes : List UInt8) : Attempt s bytes (s.write bytes) := by
  fun_induction write s bytes with
  | case1 s n w _ =>
    cases n with
    | zero => exact .stuck fun message => .failing s w (.stuck message)
    | succ n => exact .took n (.taking s w rfl (List.take_append_drop (n + 1) bytes))
  | case2 s e w _ hi ih =>
    refine ih.after_interrupted (.taking s w ?_ rfl)
    exact decide_eq_false (not_not_intro hi)
  | case3 s e w _ hi => exact .refused (.failing s w (.refused hi))

/-- Flushing takes no bytes; a failure is reported. -/
theorem flush_sends (s : Logged ω) :
    Sends s (ByteWriter.flush s).2 [] [] (reported (ByteWriter.flush s).1) := by
  show Sends s (s.after _ (.flushed (RawWriter.flush s.writer).1)) [] []
    (reported (RawWriter.flush s.writer).1)
  cases (RawWriter.flush s.writer).1 with
  | ok _ => exact .taking s _ rfl rfl
  | error e => exact .failing s _ .unflushed

/-- **Bytes are taken in their order.**  If a write fails, this is what is reported, and nothing is
written behind it; otherwise all bytes are taken.  By induction on the bytes that are left. -/
theorem writeAll_sends (stuck : String) (fuel : Nat) :
    ∀ (bytes : List UInt8) (s : Logged ω), bytes.length ≤ fuel →
      ∃ result left t, writeAll stuck fuel bytes s = (result, left, t) ∧
        Sends s t bytes left (reported result) ∧ (result = .ok () → left = []) := by
  induction fuel with
  | zero =>
    intro bytes s hfuel
    cases List.eq_nil_of_length_eq_zero (Nat.le_zero.mp hfuel)
    exact ⟨.ok (), [], s, rfl, .refl s [], fun _ => rfl⟩
  | succ fuel ih =>
    intro bytes s hfuel
    cases bytes with
    | nil => exact ⟨.ok (), [], s, rfl, .refl s [], fun _ => rfl⟩
    | cons b bytes =>
      have attempt := write_attempt s (b :: bytes)
      rw [writeAll.eq_def]
      dsimp only
      rw [show ByteWriter.write s (b :: bytes) = s.write (b :: bytes) from rfl]
      generalize s.write (b :: bytes) = x at attempt
      cases attempt with
      | took n h =>
        have hlength : ((b :: bytes).drop (n + 1)).length ≤ fuel := by
          rw [List.length_drop]
          omega
        obtain ⟨result, left, u, heq, h', hok⟩ := ih _ _ hlength
        exact ⟨result, left, u, heq, h.trans h', hok⟩
      | stuck h => exact ⟨_, _, _, rfl, h stuck, nofun⟩
      | refused h => exact ⟨_, _, _, rfl, h, nofun⟩

end Logged

/-! ## Behind a buffer -/

namespace Buffered

open Logged

variable {ω : Type}

/-- From one buffered sink to another: what was buffered and what is `given` has been taken, is
buffered, or has been `lost`. -/
def Passes (s t : Buffered (Logged ω)) (given lost : List UInt8) (errors : List IoError) : Prop :=
  Sends s.writer t.writer (s.buffer.toList ++ given) (t.buffer.toList ++ lost) errors ∧
    t.error = s.error

/-- Bytes that fit into the buffer. -/
theorem Passes.buffered (s : Buffered (Logged ω)) (bytes : Array UInt8) :
    Passes s { s with buffer := s.buffer ++ bytes } bytes.toList [] [] := by
  refine ⟨?_, rfl⟩
  rw [Array.toList_append, List.append_nil]
  exact Sends.refl s.writer _

variable [RawWriter ω]

/-- Writing the buffer loses nothing, and leaves nothing unless a write fails. -/
theorem flushBuffer_passes (s : Buffered (Logged ω)) :
    ∃ result t, s.flushBuffer = (result, t) ∧ Passes s t [] [] (reported result) ∧
      (result = .ok () → t.buffer = #[]) := by
  obtain ⟨result, left, w, heq, h, hok⟩ := writeAll_sends "failed to write the buffered data"
    s.buffer.toList.length s.buffer.toList s.writer (Nat.le_refl _)
  refine ⟨result, { s with writer := w, buffer := left.toArray }, ?_, ⟨?_, rfl⟩, ?_⟩
  · rw [flushBuffer, heq]
  · rw [List.append_nil, List.append_nil]
    exact h
  · intro hresult
    rw [hok hresult]

/-- Bytes behind the buffer.  Many are written at once, when nothing is buffered; a write that fails
loses what it has not taken. -/
theorem writeBehind_passes {s : Buffered (Logged ω)} (bytes : Array UInt8)
    (hs : capacity ≤ bytes.size → s.buffer = #[]) :
    ∃ result t lost, s.writeBehind bytes = (result, t) ∧
      Passes s t bytes.toList lost (reported result) ∧ (result = .ok () → lost = []) := by
  unfold writeBehind
  by_cases hmany : capacity ≤ bytes.size
  · rw [if_pos hmany]
    obtain ⟨result, left, w, heq, h, hok⟩ := writeAll_sends "failed to write whole buffer"
      bytes.size bytes.toList s.writer (Nat.le_of_eq Array.length_toList)
    refine ⟨result, { s with writer := w }, left, ?_, ⟨?_, rfl⟩, hok⟩
    · rw [heq]
    · rw [hs hmany]
      exact h
  · rw [if_neg hmany]
    exact ⟨.ok (), _, [], rfl, .buffered s bytes, fun _ => rfl⟩

/-- **Bytes go through the buffer in their order**, and are lost behind a failure only. -/
theorem writeBytes_passes (s : Buffered (Logged ω)) (bytes : Array UInt8) :
    ∃ result t lost, s.writeBytes bytes = (result, t) ∧
      Passes s t bytes.toList lost (reported result) ∧ (result = .ok () → lost = []) := by
  unfold writeBytes
  dsimp only
  split
  · exact ⟨.ok (), _, [], rfl, .buffered s bytes, fun _ => rfl⟩
  split
  · obtain ⟨result, t, heq, h, hok⟩ := s.flushBuffer_passes
    rw [heq]
    cases result with
    | error e =>
      refine ⟨.error e, t, bytes.toList, rfl, ⟨?_, h.2⟩, nofun⟩
      simpa using h.1.behind bytes.toList
    | ok _ =>
      obtain ⟨result, u, lost, heq', h', hok'⟩ := writeBehind_passes bytes fun _ => hok rfl
      refine ⟨result, u, lost, heq', ⟨?_, h'.2.trans h.2⟩, hok'⟩
      have first := h.1.behind bytes.toList
      rw [List.append_nil, List.append_nil] at first
      exact first.trans h'.1
  · -- the bytes fill the buffer, and it was empty if they are as many as fit into it at all
    rename_i hbelow habove
    refine writeBehind_passes bytes fun hmany => Array.eq_empty_of_size_eq_zero ?_
    simp only [capacity] at *
    omega

end Buffered

end Stencil
