import Stencil.Proofs.Input.Source

/-!
# Bytes that are a text, and bytes that are none

`decode_encode` says that a text is decoded to itself.  Here is the other direction, that nothing
but a text is decoded, and what is left of it for bytes that no text has.

- `Utf8.next_eq_char`, `Utf8.decode_eq_some`: the bytes that are decoded to a character, or to
  characters, are the bytes of these, so overlong forms and surrogates are none;
- `Utf8.LongestText`: the text of the longest part at the start of a byte list that is a text;
- `Source.script_unfailing`: a source that never fails gives characters, and from the first byte on
  that belongs to no text nothing but the report of it, however its bytes are cut.
-/

namespace Stencil

namespace Utf8

/-! ## The bytes of one character -/

/-- A following byte is there, and lies in its range. -/
theorem tail_succ_eq_char {low high owed code : Nat} {xs rest : List UInt8} {c : Char}
    (h : tail low high (owed + 1) code xs = .char c rest) :
    ∃ b xs', xs = b :: xs' ∧ low ≤ b.toNat ∧ b.toNat ≤ high ∧
      tail 0x80 0xBF owed (code * 64 + b.toNat % 64) xs' = .char c rest := by
  cases xs with
  | nil => cases h
  | cons b xs' =>
    rw [tail] at h
    split at h
    · rename_i hb
      exact ⟨b, xs', rfl, hb.1, hb.2, h⟩
    · cases h

theorem tail_zero_eq_char {low high code : Nat} {xs rest : List UInt8} {c : Char}
    (h : tail low high 0 code xs = .char c rest) : c = Char.ofNat code ∧ rest = xs := by
  rw [tail] at h
  cases h
  exact ⟨rfl, rfl⟩

/-- The number of a character that is no surrogate and not too large. -/
theorem toNat_val_ofNat {n : Nat} (h : n < 0xD800 ∨ 0xDFFF < n ∧ n < 0x110000) :
    (Char.ofNat n).val.toNat = n := by
  rw [Char.ofNat, dif_pos h]
  rfl

theorem ofNat_eq {b : UInt8} {n : Nat} (h : n = b.toNat) : UInt8.ofNat n = b := by
  rw [h, UInt8.ofNat_toNat]

/-- **A character is decoded from its own bytes only.**  The cases are those of the first byte; its
range, and the narrower range of the byte behind it, leave exactly the numbers that are written with
as many bytes. -/
theorem next_eq_char {xs rest : List UInt8} {c : Char} (h : next xs = .char c rest) :
    xs = String.utf8EncodeChar c ++ rest := by
  cases xs with
  | nil => cases h
  | cons b xs =>
    simp only [next] at h
    split at h
    · -- one byte
      rename_i h₁
      obtain ⟨rfl, rfl⟩ := h
      simp only [String.utf8EncodeChar, toNat_val_ofNat (n := b.toNat) (by omega)]
      rw [if_pos (by omega), ofNat_eq rfl]
      rfl
    split at h
    · cases h
    split at h
    · -- two bytes
      obtain ⟨b₁, xs, rfl, hl₁, hh₁, h⟩ := tail_succ_eq_char h
      obtain ⟨rfl, rfl⟩ := tail_zero_eq_char h
      simp only [String.utf8EncodeChar, toNat_val_ofNat
        (n := b.toNat % 32 * 64 + b₁.toNat % 64) (by omega)]
      rw [if_neg (by omega), if_pos (by omega), ofNat_eq (b := b) (by omega),
        ofNat_eq (b := b₁) (by omega)]
      rfl
    split at h
    · -- three bytes
      obtain ⟨b₁, xs, rfl, hl₁, hh₁, h⟩ := tail_succ_eq_char h
      obtain ⟨b₂, xs, rfl, hl₂, hh₂, h⟩ := tail_succ_eq_char h
      obtain ⟨rfl, rfl⟩ := tail_zero_eq_char h
      have hl : b.toNat = 0xE0 → 0xA0 ≤ b₁.toNat := fun hb => by rwa [if_pos hb] at hl₁
      have hh : b.toNat = 0xED → b₁.toNat ≤ 0x9F := fun hb => by rwa [if_pos hb] at hh₁
      have hl₁ : 0x80 ≤ b₁.toNat := by split at hl₁ <;> omega
      have hh₁ : b₁.toNat ≤ 0xBF := by split at hh₁ <;> omega
      simp only [String.utf8EncodeChar, toNat_val_ofNat
        (n := (b.toNat % 16 * 64 + b₁.toNat % 64) * 64 + b₂.toNat % 64) (by omega)]
      rw [if_neg (by omega), if_neg (by omega), if_pos (by omega), ofNat_eq (b := b) (by omega),
        ofNat_eq (b := b₁) (by omega), ofNat_eq (b := b₂) (by omega)]
      rfl
    split at h
    · -- four bytes
      obtain ⟨b₁, xs, rfl, hl₁, hh₁, h⟩ := tail_succ_eq_char h
      obtain ⟨b₂, xs, rfl, hl₂, hh₂, h⟩ := tail_succ_eq_char h
      obtain ⟨b₃, xs, rfl, hl₃, hh₃, h⟩ := tail_succ_eq_char h
      obtain ⟨rfl, rfl⟩ := tail_zero_eq_char h
      have hl : b.toNat = 0xF0 → 0x90 ≤ b₁.toNat := fun hb => by rwa [if_pos hb] at hl₁
      have hh : b.toNat = 0xF4 → b₁.toNat ≤ 0x8F := fun hb => by rwa [if_pos hb] at hh₁
      have hl₁ : 0x80 ≤ b₁.toNat := by split at hl₁ <;> omega
      have hh₁ : b₁.toNat ≤ 0xBF := by split at hh₁ <;> omega
      simp only [String.utf8EncodeChar, toNat_val_ofNat
        (n := ((b.toNat % 8 * 64 + b₁.toNat % 64) * 64 + b₂.toNat % 64) * 64 + b₃.toNat % 64)
        (by omega)]
      rw [if_neg (by omega), if_neg (by omega), if_neg (by omega), ofNat_eq (b := b) (by omega),
        ofNat_eq (b := b₁) (by omega), ofNat_eq (b := b₂) (by omega), ofNat_eq (b := b₃) (by omega)]
      rfl
    · cases h

/-! ## The bytes of a text -/

@[simp] theorem encode_cons (c : Char) (cs : List Char) :
    encode (c :: cs) = String.utf8EncodeChar c ++ encode cs := rfl

@[simp] theorem encode_append (cs ds : List Char) : encode (cs ++ ds) = encode cs ++ encode ds :=
  List.flatMap_append

/-- **Nothing but a text is decoded**: the bytes are those of the characters, and what is left. -/
theorem decode_eq_some {bytes left : List UInt8} {cs : List Char}
    (h : decode bytes = some (cs, left)) : bytes = encode cs ++ left := by
  induction hn : bytes.length using Nat.strongRecOn generalizing bytes cs with
  | ind n ih =>
    subst hn
    rw [decode_eq] at h
    cases hx : next bytes with
    | char c rest =>
      rw [hx] at h
      obtain ⟨⟨ds, left'⟩, hd, heq⟩ := Option.map_eq_some_iff.mp h
      obtain ⟨rfl, rfl⟩ := Prod.mk.inj heq
      rw [encode_cons, List.append_assoc, ← ih _ (next_length hx) hd rfl]
      exact next_eq_char hx
    | incomplete =>
      rw [hx] at h
      obtain ⟨rfl, rfl⟩ := Prod.mk.inj (Option.some.inj h)
      rfl
    | malformed =>
      rw [hx] at h
      cases h

/-- Different texts have different bytes. -/
theorem encode_inj {cs ds : List Char} (h : encode cs = encode ds) : cs = ds := by
  have hd := decode_encode cs
  rw [h, decode_encode ds] at hd
  exact (Prod.mk.inj (Option.some.inj hd)).1.symm

/-- The text of the longest part at the start of a byte list that is a text. -/
structure LongestText (bytes : List UInt8) (cs : List Char) : Prop where
  starts : encode cs <+: bytes
  longest : ∀ ds, encode ds <+: bytes → ds <+: cs

/-- A text in front begins with the first character. -/
theorem next_of_encode_cons_prefix {bytes : List UInt8} {d : Char} {ds : List Char}
    (h : encode (d :: ds) <+: bytes) : ∃ rest, next bytes = .char d rest ∧ encode ds <+: rest := by
  obtain ⟨t, rfl⟩ := h
  refine ⟨encode ds ++ t, ?_, List.prefix_append ..⟩
  rw [encode_cons, List.append_assoc, next_encodeChar]

/-- Every byte list has a longest text in front: the characters are taken off one after the other,
until what stands in front is none. -/
theorem exists_longestText (bytes : List UInt8) : ∃ cs, LongestText bytes cs := by
  induction hn : bytes.length using Nat.strongRecOn generalizing bytes with
  | ind n ih =>
    subst hn
    have noChar (h : ∀ c rest, next bytes ≠ .char c rest) : LongestText bytes [] := by
      refine ⟨List.nil_prefix, fun ds hds => ?_⟩
      cases ds with
      | nil => exact List.nil_prefix
      | cons d ds =>
        obtain ⟨rest, hd, -⟩ := next_of_encode_cons_prefix hds
        exact absurd hd (h d rest)
    cases hx : next bytes with
    | char c rest =>
      obtain ⟨cs, hcs⟩ := ih _ (next_length hx) rest rfl
      refine ⟨c :: cs, ?_, fun ds hds => ?_⟩
      · rw [next_eq_char hx, encode_cons]
        exact (List.prefix_append_right_inj _).mpr hcs.starts
      · cases ds with
        | nil => exact List.nil_prefix
        | cons d ds =>
          obtain ⟨rest', hd, hds⟩ := next_of_encode_cons_prefix hds
          obtain ⟨rfl, rfl⟩ := Next.char.inj (hx.symm.trans hd)
          exact (List.prefix_cons_inj c).mpr (hcs.longest ds hds)
    | incomplete => exact ⟨[], noChar fun c rest h => by simp [hx] at h⟩
    | malformed => exact ⟨[], noChar fun c rest h => by simp [hx] at h⟩

end Utf8

/-! ## Sources that never fail -/

namespace Script

/-- Nothing but the report that bytes are no text. -/
def Refusing (es : Script) : Prop := ∀ e ∈ es, e = .error .invalidUtf8

theorem Refusing.nil : Refusing [] := nofun

theorem Refusing.cons {es : Script} (h : es.Refusing) : Refusing (.error .invalidUtf8 :: es) := by
  intro e he
  rcases List.mem_cons.mp he with rfl | he
  · rfl
  · exact h e he

theorem Refusing.text {es : Script} (h : es.Refusing) : es.text = [] := by
  refine List.filterMap_eq_nil_iff.mpr fun e he => ?_
  rw [h e he]
  rfl

theorem Refusing.failures : ∀ {es : Script}, es.Refusing → ∀ e ∈ es.failures, e = .invalidUtf8
  | [], _, _, he => nomatch he
  | .ok c :: _, h, _, _ => nomatch h (.ok c) (List.mem_cons_self ..)
  | .error e :: es, h, e', he => by
    rcases List.mem_cons.mp he with rfl | he
    · exact Except.error.inj (h (.error e') (List.mem_cons_self ..))
    · exact Refusing.failures (fun x hx => h x (List.mem_cons_of_mem _ hx)) e' he

end Script

namespace Source

/-- Bytes that are no text stay in front, and are reported again with each call. -/
theorem script_of_malformed :
    ∀ {s : Source} {left : List UInt8}, s.failures = [] → Utf8.decode left = none →
      (s.script left).Refusing
  | [], left, _, hl | .bytes [] :: _, left, _, hl => by
    cases left with
    | nil => cases hl
    | cons b bs => exact .cons .nil
  | .bytes (b :: bs) :: rest, left, hf, hl => by
    have hnone : Utf8.decode (left ++ b :: bs) = none := by
      rw [Utf8.decode_append, hl]
      rfl
    rw [script, hnone]
    exact (script_of_malformed (s := rest) hf hnone).cons
  | .failure e :: rest, left, hf, hl => by
    rw [failures] at hf
    by_cases he : e.kind = .interrupted
    · rw [if_pos he] at hf
      rw [script, if_pos he]
      exact script_of_malformed hf hl
    · rw [if_neg he] at hf
      cases hf

/-- **A source that never fails** gives characters, whose bytes stand in front, and behind them
nothing but the report of bytes that are no text.  Without such a report these are all bytes. -/
theorem script_unfailing :
    ∀ {s : Source} {left : List UInt8}, s.failures = [] → Utf8.decode left = some ([], left) →
      ∃ cs es, s.script left = Script.ofChars cs ++ es ∧ es.Refusing ∧
        Utf8.encode cs <+: left ++ s.delivered ∧ (es = [] → Utf8.encode cs = left ++ s.delivered)
  | [], left, _, _ | .bytes [] :: _, left, _, _ => by
    cases left with
    | nil => exact ⟨[], [], rfl, .nil, List.nil_prefix, fun _ => rfl⟩
    | cons b bs =>
      exact ⟨[], [.error .invalidUtf8], rfl, .cons .nil, List.nil_prefix,
        fun h => absurd h (List.cons_ne_nil _ _)⟩
  | .bytes (b :: bs) :: rest, left, hf, _ => by
    rw [script, delivered, ← List.append_assoc]
    cases hd : Utf8.decode (left ++ b :: bs) with
    | none =>
      exact ⟨[], _, rfl, (script_of_malformed (s := rest) hf hd).cons, List.nil_prefix,
        fun h => absurd h (List.cons_ne_nil _ _)⟩
    | some p =>
      obtain ⟨cs, left'⟩ := p
      -- what this call completes, and then the rest behind what it leaves over
      obtain ⟨ds, es, hs, hes, hp, hall⟩ := script_unfailing (s := rest) hf (Utf8.decode_left hd)
      refine ⟨cs ++ ds, es, ?_, hes, ?_, fun h => ?_⟩
      · dsimp only
        rw [hs, ← List.append_assoc, Script.ofChars, Script.ofChars, Script.ofChars,
          List.map_append]
      · rw [Utf8.decode_eq_some hd, List.append_assoc, Utf8.encode_append]
        exact (List.prefix_append_right_inj _).mpr hp
      · rw [Utf8.decode_eq_some hd, List.append_assoc, Utf8.encode_append, hall h]
  | .failure e :: rest, left, hf, hl => by
    rw [failures] at hf
    by_cases he : e.kind = .interrupted
    · rw [if_pos he] at hf
      rw [script, if_pos he, delivered]
      exact script_unfailing hf hl
    · rw [if_neg he] at hf
      cases hf

end Source

end Stencil
