import Stencil.Proofs.Input.Pointer
import Stencil.Proofs.Input.Wellformed

/-!
# A reader's verdict on bytes

`Reader.likePointer` is about sources of a text.  A source of other bytes never fails by itself, and
yet reading it ends in a failure.

- `Reader.Drains`: reading characters until the end or a failure, in one way only
  (`Reader.Drains.unique`);
- `Reader.drains_refusing`: what is drained are the characters that lie ahead;
- `Reader.Sealed`: behind the failure there is nothing but the characters that are there already;
- `Reader.verdict`: **a reader accepts exactly the bytes of a text**, however they are cut, and what
  it reads of others lies in the longest text in front of them.
-/

namespace Stencil

namespace Reader

/-- Characters are read until the end, or until a failure: the characters, the answer, and the
reader behind it. -/
inductive Drains : Reader → List Char → Except IoError Unit → Reader → Prop where
  | done {r r' : Reader} (h : r.read = (.ok none, r')) : Drains r [] (.ok ()) r'
  | failed {r r' : Reader} {e : IoError} (h : r.read = (.error e, r')) : Drains r [] (.error e) r'
  | char {r r' r'' : Reader} {c : Char} {cs : List Char} {answer : Except IoError Unit}
    (h : r.read = (.ok (some c), r')) (rest : Drains r' cs answer r'') :
    Drains r (c :: cs) answer r''

/-- There is one way to drain a reader. -/
theorem Drains.unique {r r₁ : Reader} {cs : List Char} {a : Except IoError Unit}
    (h₁ : Drains r cs a r₁) {r₂ : Reader} {ds : List Char} {b : Except IoError Unit}
    (h₂ : Drains r ds b r₂) : cs = ds ∧ a = b := by
  induction h₁ generalizing r₂ ds b with
  | done h₁ => cases h₂ <;> simp_all
  | failed h₁ => cases h₂ <;> simp_all
  | char h₁ _ ih =>
    cases h₂ with
    | done h₂ | failed h₂ => simp [h₁] at h₂
    | char h₂ rest =>
      rw [h₁] at h₂
      obtain ⟨hc, rfl⟩ := Prod.mk.inj h₂
      obtain ⟨rfl, rfl⟩ := ih rest
      obtain rfl := Option.some.inj (Except.ok.inj hc)
      exact ⟨rfl, rfl⟩

/-- **Draining takes the characters that lie ahead**, and the first report behind them.  The
induction is on the characters. -/
theorem drains_refusing {cs : List Char} {es : Script} (hes : es.Refusing) :
    ∀ {r : Reader}, r.Valid → r.ahead = .ofChars cs ++ es →
      ∃ r', Drains r cs (if es = [] then .ok () else .error .invalidUtf8) r' ∧ r'.Valid ∧
        r'.script = r.script.take (r.position + cs.length) ++ es.tail ∧
          r'.position = r.position + cs.length ∧ r'.marks = r.marks := by
  induction cs with
  | nil =>
    intro r h ha
    have reads := reads_read h
    obtain ⟨answer, r', hr⟩ : ∃ answer r', r.read = (answer, r') := ⟨_, _, rfl⟩
    rw [hr] at reads
    rw [Script.ofChars, List.map_nil, List.nil_append] at ha
    cases es with
    | nil =>
      cases reads with
      | char ahead | failed ahead => simp [ha] at ahead
      | done _ valid script position marks =>
        refine ⟨r', .done hr, valid, ?_, position, marks⟩
        rw [script, List.tail_nil, List.append_nil, List.length_nil, Nat.add_zero]
        exact (List.take_of_length_le (List.drop_eq_nil_iff.mp ha)).symm
    | cons e es =>
      obtain rfl := hes e (List.mem_cons_self ..)
      cases reads with
      | char ahead | done ahead => simp [ha] at ahead
      | failed ahead valid script position marks =>
        rw [ha] at ahead
        obtain ⟨he, rfl⟩ := List.cons.inj ahead
        obtain rfl := Except.error.inj he
        exact ⟨r', .failed hr, valid, script, position, marks⟩
  | cons c cs ih =>
    intro r h ha
    have reads := reads_read h
    obtain ⟨answer, r', hr⟩ : ∃ answer r', r.read = (answer, r') := ⟨_, _, rfl⟩
    rw [hr] at reads
    cases reads with
    | done ahead | failed ahead => simp [ha, Script.ofChars] at ahead
    | char ahead valid script position marks =>
      rw [ha] at ahead
      obtain ⟨hc, hrest⟩ := List.cons.inj ahead
      obtain rfl := Except.ok.inj hc
      have ha' : r'.ahead = .ofChars cs ++ es := by
        rw [Reader.ahead, script, position, ← List.drop_drop, ← Reader.ahead, ha]
        rfl
      obtain ⟨r'', drains, valid', script', position', marks'⟩ := ih valid ha'
      refine ⟨r'', .char hr drains, valid', ?_, ?_, marks'.trans marks⟩
      · rw [script', script, position, List.length_cons, Nat.add_right_comm, Nat.add_assoc]
      · rw [position', position, List.length_cons, Nat.add_right_comm, Nat.add_assoc]

/-- Where nothing but reports lies behind a position, no more than the characters in front of it
has been decoded. -/
theorem decoded_of_refusing {r : Reader} {cs : List Char} {es : Script} (h : r.Valid)
    (hs : r.script = .ofChars cs ++ es) (hes : es.Refusing) (hp : cs.length ≤ r.position) :
    r.decoded = cs := by
  have htext : r.decoded ++ r.coming.text = cs := by
    have := congrArg Script.text hs
    rwa [script, Script.text_append, Script.text_append, Script.text_ofChars, Script.text_ofChars,
      hes.text, List.append_nil] at this
  exact List.IsPrefix.eq_of_length_le ⟨_, htext⟩ (Nat.le_trans hp h.position)

/-- A reader behind bytes that are no text: these characters have been decoded, and all requests,
whatever they go back to, are answered as a pointer into these characters answers them, behind
which there is nothing but further reports. -/
structure Sealed (cs : List Char) (r : Reader) : Prop where
  decoded : r.decoded = cs
  replies : ∀ later : List Request, ∃ failures p, (∀ e ∈ failures, e = .invalidUtf8) ∧
    Pointer.Runs ⟨cs, r.position, r.marks, failures⟩ later (r.performAll later).1 p

theorem sealed_of_refusing {r : Reader} {cs : List Char} {es : Script} (h : r.Valid)
    (hs : r.script = .ofChars cs ++ es) (hes : es.Refusing) (hp : cs.length ≤ r.position) :
    Sealed cs r := by
  have shows : Shows r ⟨cs, r.position, r.marks, es.failures⟩ := by
    refine ⟨h, ?_, ?_, rfl, rfl⟩
    · rw [hs, Script.text_append, Script.text_ofChars, hes.text, List.append_nil]
    · rw [hs, Script.failures_append, Script.failures_ofChars, List.nil_append]
  refine ⟨decoded_of_refusing h hs hes hp, fun later => ?_⟩
  obtain ⟨p, run, -, -⟩ := shows.performAll later
  exact ⟨es.failures, p, hes.failures, run⟩

/-- What a reader makes of some bytes. -/
structure Verdict (bytes : List UInt8) (r : Reader) : Prop where
  /-- Reading comes to the end for the bytes of a text only, and gives the text. -/
  accepts : ∀ cs, (∃ r', Drains r cs (.ok ()) r') ↔ bytes = Utf8.encode cs
  /-- Otherwise it ends in the report that the bytes are no text, behind characters that stand in
  front in the longest text there. -/
  refuses : (∀ cs, bytes ≠ Utf8.encode cs) → ∃ cs r', Drains r cs (.error .invalidUtf8) r' ∧
    (∃ text, Utf8.LongestText bytes text ∧ cs <+: text) ∧ Sealed cs r'

/-- The verdict on a source that never fails, interruptions apart. -/
theorem verdict_of_unfailing {s : Source} (h : s.failures = []) :
    Verdict s.delivered (ofSource s) := by
  obtain ⟨hd, hf⟩ := Source.limitedTo_spec bytesPerCall s
  obtain ⟨cs, es, hs, hes, hp, hall⟩ := Source.script_unfailing (hf.trans h)
    (show Utf8.decode [] = some ([], []) from rfl)
  rw [← script_ofSource] at hs
  rw [List.nil_append, hd] at hp hall
  have hv := valid_ofSource s
  obtain ⟨r', drains, valid, script, position, -⟩ := drains_refusing hes hv hs
  have hstart : (ofSource s).position = 0 := rfl
  rw [hstart, Nat.zero_add] at script position
  have hempty : (∃ ds, s.delivered = Utf8.encode ds) → es = [] := by
    -- the characters of a text come without a report
    rintro ⟨ds, hds⟩
    have hdec : Utf8.decode ([] ++ (s.limitedTo bytesPerCall).delivered) = some (ds, []) := by
      rw [List.nil_append, hd, hds, Utf8.decode_encode]
    obtain ⟨-, hfail⟩ := Source.script_of_delivered rfl hdec
    rw [← script_ofSource, hs, hf, h] at hfail
    cases es with
    | nil => rfl
    | cons e es =>
      rw [hes e (List.mem_cons_self ..), Script.failures_append, Script.failures_ofChars] at hfail
      cases hfail
  refine ⟨fun ds => ⟨?_, fun hds => ?_⟩, fun hne => ⟨cs, r', ?_, ?_, ?_⟩⟩
  · rintro ⟨r'', drains'⟩
    obtain ⟨rfl, hanswer⟩ := drains.unique drains'
    by_cases he : es = []
    · exact (hall he).symm
    · rw [if_neg he] at hanswer
      cases hanswer
  · have he := hempty ⟨ds, hds⟩
    rw [if_pos he] at drains
    exact ⟨r', Utf8.encode_inj ((hall he).trans hds) ▸ drains⟩
  · rwa [if_neg fun he => hne cs (hall he).symm] at drains
  · obtain ⟨text, htext⟩ := Utf8.exists_longestText s.delivered
    exact ⟨text, htext, htext.longest cs hp⟩
  · refine sealed_of_refusing valid ?_ (fun e he => hes e (List.mem_of_mem_tail he))
      (Nat.le_of_eq position.symm)
    rw [script, hs, List.take_left' (Script.length_ofChars _)]

/-- **A reader accepts exactly the bytes of a text**, for all bytes and all ways to cut them into
calls that give something. -/
theorem verdict {chunks : List (List UInt8)} (h : ∀ chunk ∈ chunks, chunk ≠ []) :
    Verdict chunks.flatten (ofSource (chunks.map .bytes)) := by
  obtain ⟨hd, hf⟩ := Source.map_bytes_append h []
  rw [List.append_nil] at hd hf
  have verdict := verdict_of_unfailing (s := chunks.map .bytes) hf
  rwa [hd, Source.delivered, List.append_nil] at verdict

/-- A character in two calls, and behind it a surrogate in two calls: the character is read, and
then the bytes are refused. -/
theorem verdict_surrogate :
    let chunks : List (List UInt8) := [[0x61, 0xC3], [0xA9, 0xED], [0xA0, 0x80, 0x62]]
    (∀ chunk ∈ chunks, chunk ≠ []) ∧ (∀ cs, chunks.flatten ≠ Utf8.encode cs) ∧
      Verdict chunks.flatten (ofSource (chunks.map .bytes)) := by
  intro chunks
  refine ⟨by decide, fun cs h => ?_, verdict (by decide)⟩
  have hd : Utf8.decode chunks.flatten = some (cs, []) := by rw [h, Utf8.decode_encode]
  rw [show Utf8.decode chunks.flatten = none by decide] at hd
  cases hd

end Reader

end Stencil
