import Stencil.Proofs.Input.Script

/-!
# What a source delivers

The script of a source depends on how its bytes are cut only where they are no text.

- `Source.script_of_delivered`: a source that delivers the bytes of a text has the characters of the
  text and the failures of the source, wherever its calls and its failures stand;
- `Source.limitedTo_spec`: a limit for each call changes neither;
- `Source.readText_eq_ok`: a source that is read as a text delivers the bytes of that text, and
  never fails;
- `Reader.script_of_readText`: a reader of such a source has that text as its script;
- `Source.length_chars_script`: there are no more characters than bytes.
-/

namespace Stencil

/-- What is left over by decoding is decoded to nothing. -/
theorem Utf8.decode_left {bytes left : List UInt8} {cs : List Char}
    (h : decode bytes = some (cs, left)) : decode left = some ([], left) := by
  have happ := decode_append bytes []
  rw [List.append_nil, h] at happ
  simp only [Option.bind_some, List.append_nil] at happ
  obtain ⟨⟨ds, left'⟩, hd, heq⟩ := Option.map_eq_some_iff.mp happ.symm
  obtain ⟨hds, hleft⟩ := Prod.mk.inj heq
  have hnil : ds = [] := List.append_cancel_left (hds.trans (List.append_nil cs).symm)
  rw [hd, hnil]
  exact congrArg (fun left => some ([], left)) hleft

namespace Source

/-- **The bytes of a text are read as the text**, however they are cut: the induction goes along the
calls, and what carries it is that the bytes left over so far complete no character. -/
theorem script_of_delivered :
    ∀ {s : Source} {left : List UInt8} {cs : List Char}, Utf8.decode left = some ([], left) →
      Utf8.decode (left ++ s.delivered) = some (cs, []) →
        (s.script left).text = cs ∧ (s.script left).failures = s.failures
  | [], left, cs, hl, h | .bytes [] :: _, left, cs, hl, h => by
    rw [delivered, List.append_nil, hl] at h
    obtain ⟨rfl, rfl⟩ := Prod.mk.inj (Option.some.inj h)
    exact ⟨rfl, rfl⟩
  | .bytes (b :: bs) :: rest, left, cs, _, h => by
    -- decoding in pieces: this call first, then the rest behind what it leaves over
    rw [delivered, ← List.append_assoc, Utf8.decode_append] at h
    obtain ⟨⟨cs₁, left₁⟩, h₁, h₂⟩ := Option.bind_eq_some_iff.mp h
    obtain ⟨⟨cs₂, left₂⟩, h₂, heq⟩ := Option.map_eq_some_iff.mp h₂
    obtain ⟨rfl, rfl⟩ := Prod.mk.inj heq
    obtain ⟨ht, hf⟩ := script_of_delivered (Utf8.decode_left h₁) h₂
    rw [script, h₁]
    exact ⟨by rw [Script.text_append, Script.text_ofChars, ht],
      by rw [Script.failures_append, Script.failures_ofChars, hf]; rfl⟩
  | .failure e :: rest, left, cs, hl, h => by
    obtain ⟨ht, hf⟩ := script_of_delivered (s := rest) hl h
    rw [script, failures]
    by_cases he : e.kind = .interrupted
    · rw [if_pos he, if_pos he]
      exact ⟨ht, hf⟩
    · rw [if_neg he, if_neg he]
      exact ⟨ht, congrArg (e :: ·) hf⟩

/-- There are no more characters in front of the first failure than bytes. -/
theorem length_chars_script :
    ∀ (s : Source) (left : List UInt8), (s.script left).chars.length ≤ left.length + s.size
  | [], left | .bytes [] :: _, left => by
    rw [script]
    split <;> exact Nat.zero_le _
  | .bytes (b :: bs) :: rest, left => by
    rw [script]
    split
    · rename_i cs left' hd
      have hlen := Utf8.decode_length hd
      have ih := length_chars_script rest left'
      rw [Script.chars_ofChars_append, List.length_append, size]
      rw [List.length_append] at hlen
      omega
    · exact Nat.zero_le _
  | .failure e :: rest, left => by
    rw [script]
    split
    · exact length_chars_script rest left
    · exact Nat.zero_le _

/-! ## Limited calls -/

/-- The pieces of a byte list are not empty, and together they are the list. -/
theorem piecesOf_spec (limit : Nat) :
    ∀ {fuel : Nat} {bytes : List UInt8}, bytes.length ≤ fuel →
      (∀ piece ∈ piecesOf limit fuel bytes, piece ≠ []) ∧
        (piecesOf limit fuel bytes).flatten = bytes
  | 0, [], _ => ⟨by simp [piecesOf], rfl⟩
  | 0, _ :: _, h => absurd h (Nat.not_succ_le_zero _)
  | fuel + 1, [], _ => ⟨by simp [piecesOf], rfl⟩
  | fuel + 1, b :: bs, h => by
    have hlen : ((b :: bs).drop (limit + 1)).length ≤ fuel := by
      simp only [List.length_drop, List.length_cons] at h ⊢
      omega
    obtain ⟨hne, hjoin⟩ := piecesOf_spec limit hlen
    rw [piecesOf, if_neg (by simp)]
    refine ⟨fun piece hp => ?_, ?_⟩
    · rcases List.mem_cons.mp hp with rfl | hp
      · simp
      · exact hne piece hp
    · rw [List.flatten_cons, hjoin, List.take_append_drop]

/-- Calls that give something deliver it in front of what the calls behind them deliver. -/
theorem map_bytes_append {pieces : List (List UInt8)} (h : ∀ piece ∈ pieces, piece ≠ [])
    (s : Source) :
    delivered (pieces.map .bytes ++ s) = pieces.flatten ++ s.delivered ∧
      failures (pieces.map .bytes ++ s) = s.failures := by
  induction pieces with
  | nil => exact ⟨rfl, rfl⟩
  | cons piece pieces ih =>
    obtain ⟨hd, hf⟩ := ih fun p hp => h p (List.mem_cons_of_mem _ hp)
    cases piece with
    | nil => exact absurd rfl (h [] (List.mem_cons_self ..))
    | cons b bs =>
      refine ⟨?_, hf⟩
      rw [List.map_cons, List.cons_append, delivered, hd, List.flatten_cons, List.append_assoc]

/-- A limit for the bytes of a call changes neither what is delivered nor the failures. -/
theorem limitedTo_spec (limit : Nat) :
    ∀ s : Source, (s.limitedTo limit).delivered = s.delivered ∧
      (s.limitedTo limit).failures = s.failures
  | [] | .bytes [] :: _ => ⟨rfl, rfl⟩
  | .bytes (b :: bs) :: rest => by
    obtain ⟨hd, hf⟩ := limitedTo_spec limit rest
    obtain ⟨hne, hjoin⟩ := piecesOf_spec (limit - 1) (Nat.le_refl (b :: bs).length)
    obtain ⟨hd', hf'⟩ := map_bytes_append hne (limitedTo limit rest)
    refine ⟨hd'.trans ?_, hf'.trans hf⟩
    rw [hjoin, hd]
    rfl
  | .failure e :: rest => by
    obtain ⟨hd, hf⟩ := limitedTo_spec limit rest
    refine ⟨hd, ?_⟩
    show (if e.kind = .interrupted then failures (limitedTo limit rest)
      else e :: failures (limitedTo limit rest)) = _
    rw [hf]
    rfl

theorem size_map_bytes (pieces : List (List UInt8)) (s : Source) :
    size (pieces.map .bytes ++ s) = pieces.flatten.length + s.size := by
  induction pieces with
  | nil => exact (Nat.zero_add _).symm
  | cons piece pieces ih =>
    rw [List.map_cons, List.cons_append, size, ih, List.flatten_cons, List.length_append,
      Nat.add_assoc]

theorem size_limitedTo (limit : Nat) : ∀ s : Source, (s.limitedTo limit).size = s.size
  | [] => rfl
  | .bytes [] :: rest => by
    show ([] : List UInt8).length + size (limitedTo limit rest) = _
    rw [size_limitedTo limit rest]
    rfl
  | .bytes (b :: bs) :: rest => by
    obtain ⟨-, hjoin⟩ := piecesOf_spec (limit - 1) (Nat.le_refl (b :: bs).length)
    show size ((piecesOf (limit - 1) (b :: bs).length (b :: bs)).map .bytes ++ limitedTo limit rest)
      = _
    rw [size_map_bytes, hjoin, size_limitedTo limit rest]
    rfl
  | .failure e :: rest => size_limitedTo limit rest

/-! ## Reading a whole source -/

/-- All bytes are read exactly when nothing fails on the way. -/
theorem readBytes_eq_ok : ∀ {s : Source} {bytes : List UInt8},
    s.readBytes = .ok bytes ↔ s.failures = [] ∧ s.delivered = bytes
  | [], _ | .bytes [] :: _, _ => by simp [readBytes, failures, delivered]
  | .bytes (b :: bs) :: rest, bytes => by
    have hstep : readBytes (.bytes (b :: bs) :: rest) = (readBytes rest).map (b :: bs ++ ·) := by
      simp [readBytes]
    rw [hstep, failures, delivered]
    cases hr : readBytes rest with
    | ok bytes' =>
      obtain ⟨hf, hd⟩ := readBytes_eq_ok.mp hr
      simp [Except.map, hf, hd]
    | error e =>
      have hne : failures rest ≠ [] := fun hf => by
        rw [readBytes_eq_ok.mpr ⟨hf, rfl⟩] at hr
        cases hr
      simp [Except.map, hne]
  | .failure e :: rest, bytes => by
    rw [readBytes, failures, delivered]
    by_cases he : e.kind = .interrupted
    · rw [if_pos he, if_pos he]
      exact readBytes_eq_ok
    · rw [if_neg he, if_neg he]
      simp

/-- A source is read as a text when it delivers well-formed bytes of the text and never fails. -/
theorem readText_eq_ok {s : Source} {text : String} (h : s.readText = .ok text) :
    s.failures = [] ∧ Utf8.decode s.delivered = some (text.toList, []) := by
  cases hb : s.readBytes with
  | error e =>
    rw [readText, hb] at h
    cases h
  | ok bytes =>
    obtain ⟨hf, hd⟩ := readBytes_eq_ok.mp hb
    rw [readText_of_readBytes hb] at h
    refine ⟨hf, ?_⟩
    cases ha : Utf8.decodeAll? bytes with
    | none =>
      rw [ha] at h
      cases h
    | some chars =>
      rw [ha] at h
      have htext : String.ofList chars = text := Except.ok.inj h
      rw [← htext, String.toList_ofList, hd]
      rw [Utf8.decodeAll?] at ha
      split at ha
      · rename_i cs hcs
        rw [hcs, Option.some.inj ha]
      · cases ha

end Source

namespace Reader

theorem script_ofSource (s : Source) :
    (ofSource s).script = (s.limitedTo bytesPerCall).script [] := rfl

/-- **A reader of a text has that text as its script.** -/
theorem script_of_readText {s : Source} {text : String} (h : s.readText = .ok text) :
    (ofSource s).script = .ofChars text.toList := by
  obtain ⟨hf, hd⟩ := Source.readText_eq_ok h
  obtain ⟨hd', hf'⟩ := Source.limitedTo_spec bytesPerCall s
  have hdec :
      Utf8.decode ([] ++ (s.limitedTo bytesPerCall).delivered) = some (text.toList, []) := by
    rw [List.nil_append, hd', hd]
  obtain ⟨htext, hfail⟩ := Source.script_of_delivered rfl hdec
  rw [script_ofSource, Script.eq_ofChars_of_failures (hfail.trans (hf'.trans hf)), htext]

theorem length_chars_script (s : Source) : (ofSource s).script.chars.length ≤ s.size := by
  rw [script_ofSource, ← Source.size_limitedTo bytesPerCall s]
  exact Nat.le_trans (Source.length_chars_script ..) (Nat.le_of_eq (Nat.zero_add _))

/-- No more characters lie ahead than the reader reckons with. -/
theorem length_chars_ahead {r : Reader} (h : r.Valid) : r.ahead.chars.length ≤ r.charsLeft := by
  have hcount : r.pages.count = r.decoded.length := h.regular.length_toList.symm
  rw [ahead_eq h, Script.chars_ofChars_append, List.length_append, List.length_drop, charsLeft,
    hcount, Nat.add_assoc]
  refine Nat.add_le_add_left ?_ _
  cases hs : r.source with
  | none =>
    rw [coming, hs]
    exact Nat.zero_le _
  | some s =>
    rw [coming, hs]
    exact Source.length_chars_script s r.undecoded

end Reader

end Stencil
