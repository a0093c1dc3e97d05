import Stencil.Proofs.Input.Source

/-!
# A reader is a pointer into a text

What a caller sees of a reader is what it would see of a list of characters with a position in it.
The list is the text that the source delivers; how the source cuts its bytes, when it fails and when
it is interrupted can be seen only in the failures that are reported.

- `Request`, `Reply`, `Reader.performAll`: a caller's requests, one after the other;
- `Pointer`, `Pointer.Allows`: a text with a position and marks, and what it may answer.  A failure
  moves nothing, or ends a block of characters early; closing cuts the text off behind some
  character that has been decoded;
- `Reader.likePointer`: **every run of a reader is a run of a pointer**, stays inside its pages, and
  never asks a source again that has ended or was given up.
-/

namespace Stencil

/-- What a caller asks of a reader. -/
inductive Request where
  | read
  | readInto (count : Nat)
  | mark
  | reset
  | close
  deriving DecidableEq

/-- What a reader answers: to `read`, to `readInto` with what stands in the buffer, and to the
requests that only move the position. -/
inductive Reply where
  | char (answer : Except IoError (Option Char))
  | chars (answer : Except IoError (Option Nat)) (buffer : List Char)
  | done

namespace Reader

/-- Carries out a request. -/
def perform (r : Reader) : Request → Reply × Reader
  | .read => (.char r.read.1, r.read.2)
  | .readInto count =>
    let (answer, buffer, r) := r.readInto count
    (.chars answer buffer, r)
  | .mark => (.done, r.mark)
  | .reset => (.done, r.reset)
  | .close => (.done, r.close)

/-- Carries out requests one after the other. -/
def performAll : Reader → List Request → List Reply × Reader
  | r, [] => ([], r)
  | r, q :: qs =>
    let (reply, r) := r.perform q
    let (replies, r) := performAll r qs
    (reply :: replies, r)

end Reader

/-- A text with a position in it, the marked positions, the latest first, and the failures that are
still to be reported. -/
structure Pointer where
  text : List Char
  position : Nat
  marks : List Nat
  failures : List IoError

namespace Pointer

/-- The characters from the position on. -/
def rest (p : Pointer) : List Char := p.text.drop p.position

/-- The pointer behind the next `n` characters. -/
def advance (p : Pointer) (n : Nat) : Pointer := { p with position := p.position + n }

/-- What a pointer may answer, and where it stands then. -/
inductive Allows : Pointer → Request → Reply → Pointer → Prop where
  /-- The character at the position. -/
  | char {p : Pointer} {c : Char} (h : p.text[p.position]? = some c) :
    Allows p .read (.char (.ok (some c))) (p.advance 1)
  /-- The end: nothing is left, and nothing is left to be reported. -/
  | atEnd {p : Pointer} (h : p.text.length ≤ p.position) (hf : p.failures = []) :
    Allows p .read (.char (.ok none)) p
  /-- A failure: it is reported once, and everything else stays. -/
  | failed {p : Pointer} {e : IoError} {es : List IoError} (h : p.failures = e :: es) :
    Allows p .read (.char (.error e)) { p with failures := es }
  /-- No characters are asked for. -/
  | nothing {p : Pointer} : Allows p (.readInto 0) (.chars (.ok (some 0)) []) p
  /-- As many characters as are asked for, or all that are left. -/
  | block {p : Pointer} {count : Nat} (h : p.rest.take count ≠ [])
      (hf : p.rest.length < count → p.failures = []) :
    Allows p (.readInto count) (.chars (.ok (some (min count p.rest.length))) (p.rest.take count))
      (p.advance (min count p.rest.length))
  /-- No characters at the end. -/
  | noBlock {p : Pointer} {count : Nat} (hc : count ≠ 0) (h : p.rest = []) (hf : p.failures = []) :
    Allows p (.readInto count) (.chars (.ok none) []) p
  /-- A failure behind some characters that are read. -/
  | blockFailed {p : Pointer} {count n : Nat} {e : IoError} {es : List IoError} (hn : n < count)
      (hr : n ≤ p.rest.length) (h : p.failures = e :: es) :
    Allows p (.readInto count) (.chars (.error e) (p.rest.take n))
      { p.advance n with failures := es }
  | mark {p : Pointer} : Allows p .mark .done { p with marks := p.position :: p.marks }
  /-- Back to the latest mark, which is forgotten. -/
  | reset {p : Pointer} {m : Nat} {ms : List Nat} (h : p.marks = m :: ms) :
    Allows p .reset .done { p with position := m, marks := ms }
  /-- Back to the start when there is no mark. -/
  | rewind {p : Pointer} (h : p.marks = []) : Allows p .reset .done { p with position := 0 }
  /-- The text ends where decoding has come to, at or behind all positions in use. -/
  | close {p : Pointer} {n : Nat} (h : p.position ≤ n) (hm : ∀ m ∈ p.marks, m ≤ n) :
    Allows p .close .done { p with text := p.text.take n, failures := [] }

/-- How a buffer with room for `count` characters is filled: with as many as there are, or with some
in front of a failure. -/
inductive Fills (p : Pointer) (count : Nat) :
    Except IoError Unit → List Char → Pointer → Prop where
  | done (hf : p.rest.length < count → p.failures = []) :
    Fills p count (.ok ()) (p.rest.take count) (p.advance (min count p.rest.length))
  | failed {n : Nat} {e : IoError} {es : List IoError} (hn : n < count) (hr : n ≤ p.rest.length)
      (h : p.failures = e :: es) :
    Fills p count (.error e) (p.rest.take n) { p.advance n with failures := es }

/-- What a pointer may answer to requests one after the other. -/
inductive Runs : Pointer → List Request → List Reply → Pointer → Prop where
  | nil {p : Pointer} : Runs p [] [] p
  | cons {p p' p'' : Pointer} {q : Request} {qs : List Request} {reply : Reply}
      {replies : List Reply} (step : Allows p q reply p') (run : Runs p' qs replies p'') :
    Runs p (q :: qs) (reply :: replies) p''

/-! ## Filling a buffer -/

theorem rest_eq_cons {p : Pointer} {c : Char} (h : p.text[p.position]? = some c) :
    p.rest = c :: (p.advance 1).rest := by
  obtain ⟨hlt, hc⟩ := List.getElem?_eq_some_iff.mp h
  rw [rest, List.drop_eq_getElem_cons hlt, hc]
  rfl

theorem advance_one_advance (p : Pointer) (n : Nat) :
    (p.advance 1).advance n = p.advance (n + 1) := by
  simp only [advance, Nat.add_assoc, Nat.add_comm 1]

theorem Fills.none {p : Pointer} : p.Fills 0 (.ok ()) [] p := by
  have h : p.Fills 0 (.ok ()) _ _ := .done fun h => absurd h (Nat.not_lt_zero _)
  rwa [Nat.zero_min] at h

theorem Fills.atEnd {p : Pointer} {count : Nat} (h : p.text.length ≤ p.position)
    (hf : p.failures = []) : p.Fills count (.ok ()) [] p := by
  have hrest : p.rest = [] := List.drop_eq_nil_of_le h
  have h : p.Fills count (.ok ()) _ _ := .done fun _ => hf
  rwa [hrest, List.take_nil, List.length_nil, Nat.min_zero] at h

theorem Fills.cons {p p' : Pointer} {count : Nat} {answer : Except IoError Unit}
    {buffer : List Char} {c : Char} (hc : p.text[p.position]? = some c)
    (h : (p.advance 1).Fills count answer buffer p') :
    p.Fills (count + 1) answer (c :: buffer) p' := by
  have hrest := rest_eq_cons hc
  have hlen : p.rest.length = (p.advance 1).rest.length + 1 := congrArg List.length hrest
  cases h with
  | done hf =>
    have h : p.Fills (count + 1) (.ok ()) _ _ := .done fun h => hf (by omega)
    rwa [hlen, Nat.add_min_add_right, ← advance_one_advance, hrest, List.take_succ_cons] at h
  | @failed n e es hn hr hf =>
    have h := Fills.failed (p := p) (Nat.succ_lt_succ hn) (by omega) hf
    rwa [← advance_one_advance, hrest, List.take_succ_cons] at h

end Pointer

namespace Reader

/-! ## What lies ahead -/

theorem text_ahead {r : Reader} (h : r.Valid) :
    r.ahead.text = r.script.text.drop r.position := by
  rw [ahead_eq h, script, Script.text_append, Script.text_append, Script.text_ofChars,
    Script.text_ofChars, List.drop_append_of_le_length h.position]

theorem failures_ahead {r : Reader} (h : r.Valid) : r.ahead.failures = r.script.failures := by
  rw [ahead_eq h, script, Script.failures_append, Script.failures_append, Script.failures_ofChars,
    Script.failures_ofChars]

theorem take_script {r : Reader} (h : r.Valid) :
    r.script.take r.position = Script.ofChars (r.decoded.take r.position) := by
  rw [script, List.take_append_of_le_length (by
    rw [Script.length_ofChars]
    exact h.position), Script.ofChars, Script.ofChars, List.map_take]

/-! ## The pointer of a reader -/

/-- A reader and its pointer: the invariant of all requests. -/
structure Shows (r : Reader) (p : Pointer) : Prop where
  valid : r.Valid
  text : r.script.text = p.text
  failures : r.script.failures = p.failures
  position : r.position = p.position
  marks : r.marks = p.marks

theorem Shows.text_ahead {r : Reader} {p : Pointer} (h : Shows r p) : r.ahead.text = p.rest := by
  rw [Reader.text_ahead h.valid, h.text, h.position]
  rfl

theorem Shows.failures_ahead {r : Reader} {p : Pointer} (h : Shows r p) :
    r.ahead.failures = p.failures := (Reader.failures_ahead h.valid).trans h.failures

/-- One character is read as a pointer reads it. -/
theorem Shows.read {r r' : Reader} {p : Pointer} {answer : Except IoError (Option Char)}
    (h : Shows r p) (reads : Reads r answer r') :
    ∃ p', p.Allows .read (.char answer) p' ∧ Shows r' p' := by
  have ht := h.text_ahead
  have hf := h.failures_ahead
  cases reads with
  | @char c es _ ha hv hs hp hm =>
    rw [ha] at ht
    refine ⟨_, .char (c := c) ?_, hv, hs ▸ h.text, hs ▸ h.failures, ?_, hm.trans h.marks⟩
    · rw [← List.head?_drop]
      exact congrArg List.head? ht.symm
    · rw [hp, h.position]
      rfl
  | done ha hv hs hp hm =>
    rw [ha] at ht hf
    exact ⟨p, .atEnd (List.drop_eq_nil_iff.mp ht.symm) hf.symm, hv, hs ▸ h.text, hs ▸ h.failures,
      hp.trans h.position, hm.trans h.marks⟩
  | @failed e es _ ha hv hs hp hm =>
    have hscript : r.script = r.script.take r.position ++ .error e :: es := by
      rw [← ha, ahead, List.take_append_drop]
    rw [ha] at hf
    refine ⟨_, .failed hf.symm, hv, ?_, ?_, hp.trans h.position, hm.trans h.marks⟩
    · show r'.script.text = p.text
      rw [hs, ← h.text]
      conv => rhs; rw [hscript]
      rw [Script.text_append, Script.text_append]
      rfl
    · rw [hs, take_script h.valid, Script.failures_append, Script.failures_ofChars]
      rfl

/-- Characters are read into a buffer one after the other; the induction is on the room in it. -/
theorem Shows.readUpTo (count : Nat) :
    ∀ {r : Reader} {p : Pointer}, Shows r p →
      ∃ p', p.Fills count (r.readUpTo count).1 (r.readUpTo count).2.1 p' ∧
        Shows (r.readUpTo count).2.2 p' := by
  induction count with
  | zero =>
    intro r p h
    exact ⟨p, .none, h⟩
  | succ count ih =>
    intro r p h
    obtain ⟨p', step, h'⟩ := h.read (reads_read h.valid)
    rw [Reader.readUpTo]
    cases hr : r.read with
    | mk answer r' =>
      rw [hr] at step h'
      cases step with
      | failed hf => exact ⟨_, .failed (Nat.succ_pos _) (Nat.zero_le _) hf, h'⟩
      | atEnd hend hf => exact ⟨p, .atEnd hend hf, h'⟩
      | char hc =>
        obtain ⟨p'', fills, h''⟩ := ih h'
        exact ⟨p'', .cons hc fills, h''⟩

/-- A buffer without characters at the end of the text has nothing behind it. -/
theorem Shows.readInto {r : Reader} {p : Pointer} (h : Shows r p) (count : Nat) :
    ∃ p', p.Allows (.readInto count) (r.perform (.readInto count)).1 p' ∧
      Shows (r.perform (.readInto count)).2 p' := by
  by_cases hc : count = 0
  · subst hc
    exact ⟨p, .nothing, h⟩
  · obtain ⟨p', fills, h'⟩ := h.readUpTo count
    simp only [perform, Reader.readInto, if_neg hc]
    cases hu : r.readUpTo count with
    | mk answer rest =>
      obtain ⟨buffer, r'⟩ := rest
      rw [hu] at fills h'
      cases fills with
      | failed hn hr hf => exact ⟨_, .blockFailed hn hr hf, h'⟩
      | done hf =>
        have hlen : (p.rest.take count).length = min count p.rest.length := List.length_take
        cases hb : p.rest.take count with
        | nil =>
          -- room was asked for, so an empty buffer means that nothing is left
          have hrest : p.rest = [] := (List.take_eq_nil_iff.mp hb).resolve_left hc
          rw [hb] at hlen
          rw [← hlen] at h'
          exact ⟨p, .noBlock hc hrest (hf (by rw [hrest]; exact Nat.pos_of_ne_zero hc)), h'⟩
        | cons c cs =>
          have allowed : p.Allows (.readInto count) _ _ := .block (by simp [hb]) hf
          rw [← hlen, hb] at allowed h'
          exact ⟨_, allowed, h'⟩

/-- Each request moves the pointer of a reader as a pointer may move. -/
theorem Shows.perform {r : Reader} {p : Pointer} (h : Shows r p) (q : Request) :
    ∃ p', p.Allows q (r.perform q).1 p' ∧ Shows (r.perform q).2 p' := by
  cases q with
  | read => exact h.read (reads_read h.valid)
  | readInto count => exact h.readInto count
  | mark =>
    refine ⟨_, .mark, h.valid.mark, h.text, h.failures, h.position, ?_⟩
    show r.position :: r.marks = p.position :: p.marks
    rw [h.position, h.marks]
  | reset =>
    have htext : r.reset.script.text = p.text := by rw [script_reset, h.text]
    have hfail : r.reset.script.failures = p.failures := by rw [script_reset, h.failures]
    have hmarks := h.marks
    cases hm : p.marks with
    | nil =>
      rw [hm] at hmarks
      refine ⟨_, .rewind hm, h.valid.reset, htext, hfail, ?_, ?_⟩
      · simp [Reader.perform, Reader.reset, hmarks]
      · simp [Reader.perform, Reader.reset, hmarks, hm]
    | cons m ms =>
      rw [hm] at hmarks
      refine ⟨_, .reset hm, h.valid.reset, htext, hfail, ?_, ?_⟩ <;>
        simp [Reader.perform, Reader.reset, hmarks]
  | close =>
    -- the text ends where decoding has come to, which no position in use lies behind
    have hposition : p.position ≤ r.decoded.length := h.position ▸ h.valid.position
    have hmarks : ∀ m ∈ p.marks, m ≤ r.decoded.length := h.marks ▸ h.valid.marks
    have hscript : r.close.script = .ofChars r.decoded := List.append_nil _
    refine ⟨_, .close hposition hmarks, h.valid.close, ?_, ?_, h.position, h.marks⟩
    · show r.close.script.text = p.text.take r.decoded.length
      rw [hscript, ← h.text, script, Script.text_append, Script.text_ofChars, List.take_left]
    · show r.close.script.failures = []
      rw [hscript, Script.failures_ofChars]

/-! ## Without a source -/

/-- The source has been given up, and nothing has changed about what is known of it. -/
structure Silent (r r' : Reader) : Prop where
  source : r'.source = none
  heard : r'.heard = r.heard
  decoded : r'.decoded = r.decoded

theorem Silent.refl {r : Reader} (h : r.source = none) : Silent r r := ⟨h, rfl, rfl⟩

theorem Silent.trans {r r' r'' : Reader} (h : Silent r r') (h' : Silent r' r'') : Silent r r'' :=
  ⟨h'.source, h'.heard.trans h.heard, h'.decoded.trans h.decoded⟩

theorem silent_read {r : Reader} (h : r.source = none) : Silent r r.read.2 := by
  rw [read, callsLeft]
  split
  · rename_i s hs
    rw [h] at hs
    cases hs
  · simp only [readWithin]
    split
    · split <;> exact ⟨h, rfl, rfl⟩
    · split
      · exact .refl h
      · rename_i s hs
        rw [h] at hs
        cases hs

theorem silent_readUpTo (count : Nat) :
    ∀ {r : Reader}, r.source = none → Silent r (r.readUpTo count).2.2 := by
  induction count with
  | zero =>
    intro r h
    exact .refl h
  | succ count ih =>
    intro r h
    have first := silent_read h
    rw [readUpTo]
    cases hr : r.read with
    | mk answer r' =>
      rw [hr] at first
      cases answer with
      | error e => exact first
      | ok c? =>
        cases c? with
        | none => exact first
        | some c => exact first.trans (ih first.source)

/-- A reader without a source stays so, and is silent. -/
theorem silent_perform {r : Reader} (h : r.source = none) :
    ∀ q : Request, Silent r (r.perform q).2
  | .read => silent_read h
  | .readInto count => by
    have all := silent_readUpTo count h
    simp only [perform, readInto]
    by_cases hc : count = 0
    · rw [if_pos hc]
      exact .refl h
    · rw [if_neg hc]
      cases hu : r.readUpTo count with
      | mk answer rest =>
        obtain ⟨buffer, r'⟩ := rest
        rw [hu] at all
        cases answer with
        | error e => exact all
        | ok u => cases buffer <;> exact all
  | .mark => ⟨h, rfl, rfl⟩
  | .reset => by
    simp only [perform, reset]
    split <;> exact ⟨h, rfl, rfl⟩
  | .close => ⟨rfl, rfl, rfl⟩

theorem silent_performAll (qs : List Request) :
    ∀ {r : Reader}, r.source = none → Silent r (r.performAll qs).2 := by
  induction qs with
  | nil =>
    intro r h
    exact .refl h
  | cons q qs ih =>
    intro r h
    have first := silent_perform h q
    exact first.trans (ih first.source)

/-! ## Runs -/

/-- Only closing changes the text of a pointer. -/
theorem text_of_allows {p p' : Pointer} {q : Request} {reply : Reply}
    (h : p.Allows q reply p') (hq : q ≠ .close) : p'.text = p.text := by
  cases h <;> first | rfl | exact absurd rfl hq

/-- The invariant of one request is the invariant of a run, by induction on the requests. -/
theorem Shows.performAll (qs : List Request) :
    ∀ {r : Reader} {p : Pointer}, Shows r p →
      ∃ p', p.Runs qs (r.performAll qs).1 p' ∧ Shows (r.performAll qs).2 p' ∧
        (.close ∉ qs → p'.text = p.text) := by
  induction qs with
  | nil =>
    intro r p h
    exact ⟨p, .nil, h, fun _ => rfl⟩
  | cons q qs ih =>
    intro r p h
    obtain ⟨p', step, h'⟩ := h.perform q
    obtain ⟨p'', run, h'', htext⟩ := ih h'
    refine ⟨p'', .cons step run, h'', fun hq => ?_⟩
    rw [htext fun hm => hq (List.mem_cons_of_mem _ hm),
      text_of_allows step fun heq => hq (heq ▸ List.mem_cons_self ..)]

theorem source_of_close {qs : List Request} (h : .close ∈ qs) :
    ∀ r : Reader, (r.performAll qs).2.source = none := by
  induction qs with
  | nil => cases h
  | cons q qs ih =>
    intro r
    rcases List.mem_cons.mp h with rfl | h
    · exact (silent_performAll qs rfl).source
    · exact ih h _

/-- A run of a reader as a run of a pointer into a text. -/
structure LikePointer (text : List Char) (failures : List IoError) (requests : List Request)
    (replies : List Reply) (r : Reader) : Prop where
  /-- The answers are those of a pointer at the start of the text, which stands where the reader
  stands.  Its text is the whole one, or after closing the characters decoded by then. -/
  pointer : ∃ p : Pointer, Pointer.Runs ⟨text, 0, [], failures⟩ requests replies p ∧
    r.position = p.position ∧ r.marks = p.marks ∧
      p.text = if .close ∈ requests then r.decoded else text
  /-- The index of a character names a page, and a place in it. -/
  inside : ∀ i < r.pages.count, ∃ page, r.pages.pages[i / Pages.pageSize]? = some page ∧
    i % Pages.pageSize < page.size
  /-- Once the source has ended or was given up, no request asks it or decodes anything. -/
  settled : .bytes [] ∈ r.heard ∨ .close ∈ requests → ∀ later : List Request,
    (r.performAll later).2.heard = r.heard ∧ (r.performAll later).2.decoded = r.decoded

/-- **A reader is a pointer into the text that its source delivers**, for every way to cut the bytes
of the text, to interrupt the calls and to fail in between, and for all requests. -/
theorem likePointer {s : Source} {text : List Char} (hs : s.delivered = Utf8.encode text)
    (requests : List Request) :
    LikePointer text s.failures requests ((ofSource s).performAll requests).1
      ((ofSource s).performAll requests).2 := by
  obtain ⟨hd, hf⟩ := Source.limitedTo_spec bytesPerCall s
  have hdec : Utf8.decode ([] ++ (s.limitedTo bytesPerCall).delivered) = some (text, []) := by
    rw [List.nil_append, hd, hs, Utf8.decode_encode]
  obtain ⟨htext, hfail⟩ := Source.script_of_delivered rfl hdec
  have start : Shows (ofSource s) ⟨text, 0, [], s.failures⟩ :=
    ⟨valid_ofSource s, htext, hfail.trans hf, rfl, rfl⟩
  obtain ⟨p, run, shows, kept⟩ := start.performAll requests
  refine ⟨⟨p, run, shows.position, shows.marks, ?_⟩, fun i hi => shows.valid.regular.place hi, ?_⟩
  · by_cases hc : .close ∈ requests
    · rw [if_pos hc, ← shows.text, script, coming, source_of_close hc, Script.text_append,
        Script.text_ofChars]
      exact List.append_nil _
    · rw [if_neg hc, kept hc]
  · intro h later
    have hnone : ((ofSource s).performAll requests).2.source = none :=
      h.elim shows.valid.settled fun hc => source_of_close hc _
    have silent := silent_performAll later hnone
    exact ⟨silent.heard, silent.decoded⟩

/-- A character of two bytes in two calls, between them an interruption and a failure. -/
theorem likePointer_split :
    let s : Source := [.bytes [0x61, 0xC3], .failure (.system .interrupted),
      .failure (.system .timedOut), .bytes [0xA9]]
    let requests : List Request := [.mark, .readInto 4, .readInto 4, .reset, .read]
    let run := (ofSource s).performAll requests
    s.delivered = Utf8.encode ['a', 'é'] ∧
      LikePointer ['a', 'é'] s.failures requests run.1 run.2 ∧
        run.1 = [.done, .chars (.error (.system .timedOut)) ['a'], .chars (.ok (some 1)) ['é'],
          .done, .char (.ok (some 'a'))] :=
  ⟨by decide, likePointer (by decide) _, rfl⟩

end Reader

end Stencil
