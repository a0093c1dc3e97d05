import Stencil.Render.Bundle

/-!
# Laws of decoding

A decoder that is fed piece by piece must not care where the pieces end.  The facts behind that:

- what stands at the start of a byte list stays there when bytes are added (`next_append_of_char`,
  `next_append_of_malformed`);
- `decode_append`: decoding two pieces is decoding the first one, and then the second one behind
  what the first has left over;
- `decode_encode`: decoding gives back an encoded text, and leaves nothing;
- `readText_ofText`: a source of a text is read as that text.
-/

namespace Stencil

namespace Utf8

/-! ## The first character -/

theorem tail_append_of_char {ys : List UInt8} :
    ∀ {owed low high code : Nat} {xs rest : List UInt8} {c : Char},
      tail low high owed code xs = .char c rest →
        tail low high owed code (xs ++ ys) = .char c (rest ++ ys)
  | 0, _, _, _, _, _, _, h => by
    simp only [tail, Next.char.injEq] at h ⊢
    exact ⟨h.1, by rw [h.2]⟩
  | _ + 1, _, _, _, [], _, _, h => by simp [tail] at h
  | owed + 1, low, high, code, b :: xs, rest, c, h => by
    simp only [tail, List.cons_append] at h ⊢
    split at h
    · rename_i hb
      rw [if_pos hb]
      exact tail_append_of_char h
    · cases h

theorem tail_append_of_malformed {ys : List UInt8} :
    ∀ {owed low high code : Nat} {xs : List UInt8},
      tail low high owed code xs = .malformed → tail low high owed code (xs ++ ys) = .malformed
  | 0, _, _, _, _, h => by simp [tail] at h
  | _ + 1, _, _, _, [], h => by simp [tail] at h
  | owed + 1, low, high, code, b :: xs, h => by
    simp only [tail, List.cons_append] at h ⊢
    split at h
    · rename_i hb
      rw [if_pos hb]
      exact tail_append_of_malformed h
    · rename_i hb
      rw [if_neg hb]

theorem tail_length :
    ∀ {owed low high code : Nat} {xs rest : List UInt8} {c : Char},
      tail low high owed code xs = .char c rest → rest.length ≤ xs.length
  | 0, _, _, _, _, _, _, h => by
    simp only [tail, Next.char.injEq] at h
    exact Nat.le_of_eq (congrArg List.length h.2.symm)
  | _ + 1, _, _, _, [], _, _, h => by simp [tail] at h
  | owed + 1, _, _, _, b :: xs, rest, _, h => by
    simp only [tail] at h
    split at h
    · have := tail_length h
      simp only [List.length_cons]
      omega
    · cases h

/-- A first byte starts no character, or decides which bytes have to follow. -/
theorem next_cons (b : UInt8) :
    (∀ rest, next (b :: rest) = .malformed) ∨
      ∃ low high owed code, ∀ rest, next (b :: rest) = tail low high owed code rest := by
  simp only [next]
  by_cases h₁ : b.toNat < 0x80
  · exact .inr ⟨0, 0, 0, b.toNat, fun _ => if_pos h₁⟩
  by_cases h₂ : b.toNat < 0xC2
  · exact .inl fun _ => by rw [if_neg h₁, if_pos h₂]
  by_cases h₃ : b.toNat < 0xE0
  · exact .inr ⟨_, _, _, _, fun _ => by rw [if_neg h₁, if_neg h₂, if_pos h₃]⟩
  by_cases h₄ : b.toNat < 0xF0
  · exact .inr ⟨_, _, _, _, fun _ => by rw [if_neg h₁, if_neg h₂, if_neg h₃, if_pos h₄]⟩
  by_cases h₅ : b.toNat < 0xF5
  · exact .inr ⟨_, _, _, _, fun _ => by
      rw [if_neg h₁, if_neg h₂, if_neg h₃, if_neg h₄, if_pos h₅]⟩
  · exact .inl fun _ => by rw [if_neg h₁, if_neg h₂, if_neg h₃, if_neg h₄, if_neg h₅]

/-- A complete character stays complete when bytes follow. -/
theorem next_append_of_char {xs rest : List UInt8} {c : Char} (h : next xs = .char c rest)
    (ys : List UInt8) : next (xs ++ ys) = .char c (rest ++ ys) := by
  cases xs with
  | nil => cases h
  | cons b xs =>
    rcases next_cons b with hb | ⟨low, high, owed, code, hb⟩
    · rw [hb] at h
      cases h
    · rw [hb] at h
      rw [List.cons_append, hb]
      exact tail_append_of_char h

/-- Bytes that start no character start none when more follow. -/
theorem next_append_of_malformed {xs : List UInt8} (h : next xs = .malformed) (ys : List UInt8) :
    next (xs ++ ys) = .malformed := by
  cases xs with
  | nil => cases h
  | cons b xs =>
    rcases next_cons b with hb | ⟨low, high, owed, code, hb⟩
    · rw [List.cons_append, hb]
    · rw [hb] at h
      rw [List.cons_append, hb]
      exact tail_append_of_malformed h

theorem next_length {xs rest : List UInt8} {c : Char} (h : next xs = .char c rest) :
    rest.length < xs.length := by
  cases xs with
  | nil => cases h
  | cons b xs =>
    rcases next_cons b with hb | ⟨low, high, owed, code, hb⟩
    · rw [hb] at h
      cases h
    · rw [hb] at h
      exact Nat.lt_succ_of_le (tail_length h)

/-! ## Whole byte lists -/

/-- Fuel beyond the number of bytes changes nothing. -/
theorem decodeFrom_of_length_le {fuel : Nat} {bytes : List UInt8} (h : bytes.length ≤ fuel) :
    decodeFrom fuel bytes = decode bytes := by
  -- A character can take several bytes, so the induction is on the number of bytes left.
  induction hn : bytes.length using Nat.strongRecOn generalizing fuel bytes with
  | ind n ih =>
    cases bytes with
    | nil => cases fuel <;> rfl
    | cons b bs =>
      cases fuel with
      | zero => exact absurd h (Nat.not_succ_le_zero _)
      | succ fuel =>
        show decodeFrom (fuel + 1) (b :: bs) = decodeFrom (bs.length + 1) (b :: bs)
        simp only [decodeFrom]
        cases hnext : next (b :: bs) with
        | char c rest =>
          have hlt : rest.length < (b :: bs).length := next_length hnext
          simp only [List.length_cons] at hlt h hn
          have h₁ : decodeFrom fuel rest = decode rest := ih _ (by omega) (by omega) rfl
          have h₂ : decodeFrom bs.length rest = decode rest := ih _ (by omega) (by omega) rfl
          simp only [h₁, h₂]
        | incomplete => rfl
        | malformed => rfl

/-- Decoding takes off one character, and goes on behind it. -/
theorem decode_eq (bytes : List UInt8) :
    decode bytes = match next bytes with
      | .char c rest => (decode rest).map (fun (chars, left) => (c :: chars, left))
      | .incomplete => some ([], bytes)
      | .malformed => none := by
  rw [← decodeFrom_of_length_le (Nat.le_succ bytes.length)]
  simp only [decodeFrom]
  cases hn : next bytes with
  | char c rest => simp only [decodeFrom_of_length_le (Nat.le_of_lt (next_length hn))]
  | incomplete => rfl
  | malformed => rfl

/-- **Decoding in pieces**: the second piece is decoded behind what the first one leaves over. -/
theorem decode_append (xs ys : List UInt8) :
    decode (xs ++ ys) = (decode xs).bind fun (cs, left) =>
      (decode (left ++ ys)).map fun (ds, left') => (cs ++ ds, left') := by
  induction hn : xs.length using Nat.strongRecOn generalizing xs with
  | ind n ih =>
    subst hn
    rw [decode_eq xs]
    cases hx : next xs with
    | char c rest =>
      rw [decode_eq (xs ++ ys), next_append_of_char hx ys]
      dsimp only
      rw [ih _ (next_length hx) rest rfl]
      cases decode rest with
      | none => rfl
      | some p =>
        obtain ⟨cs, left⟩ := p
        show Option.map _ (Option.map _ _) = Option.map _ _
        rw [Option.map_map]
        rfl
    | incomplete =>
      -- all of the first piece is left over, and goes in front of the second one
      show _ = Option.map _ (decode (xs ++ ys))
      cases decode (xs ++ ys) <;> rfl
    | malformed => rw [decode_eq (xs ++ ys), next_append_of_malformed hx ys]; rfl

/-- There are at most as many characters as bytes, those that are left over counted in. -/
theorem decode_length {bytes left : List UInt8} {cs : List Char}
    (h : decode bytes = some (cs, left)) : cs.length + left.length ≤ bytes.length := by
  induction hn : bytes.length using Nat.strongRecOn generalizing bytes cs with
  | ind n ih =>
    subst hn
    rw [decode_eq] at h
    cases hx : next bytes with
    | char c rest =>
      rw [hx] at h
      obtain ⟨⟨ds, left'⟩, hd, heq⟩ := Option.map_eq_some_iff.mp h
      obtain ⟨rfl, rfl⟩ := Prod.mk.inj heq
      have := ih _ (next_length hx) hd rfl
      have := next_length hx
      simp only [List.length_cons]
      omega
    | incomplete =>
      rw [hx] at h
      obtain ⟨rfl, rfl⟩ := Prod.mk.inj (Option.some.inj h)
      simp
    | malformed =>
      rw [hx] at h
      cases h

/-! ## Encoded texts -/

/-- A character has a number below the surrogates or above them. -/
theorem val_bounds (c : Char) : c.toNat < 0xD800 ∨ 0xE000 ≤ c.toNat ∧ c.toNat < 0x110000 := by
  rcases c.valid with h | ⟨h₁, h₂⟩
  · exact .inl h
  · exact .inr ⟨h₁, h₂⟩

/-- A following byte of a character lies in the range of such bytes, and holds six bits. -/
theorem tail_ofNat {low high owed code n : Nat} (rest : List UInt8) (hn : n < 0x40)
    (hl : low ≤ n + 0x80) (hh : n + 0x80 ≤ high) :
    tail low high (owed + 1) code (UInt8.ofNat (n + 0x80) :: rest) =
      tail 0x80 0xBF owed (code * 64 + n) rest := by
  have hb : (UInt8.ofNat (n + 0x80)).toNat = n + 0x80 := UInt8.toNat_ofNat_of_lt' (by
    show n + 0x80 < 256
    omega)
  have hm : (n + 0x80) % 64 = n := by omega
  rw [tail, hb, if_pos ⟨hl, hh⟩, hm]

/-- The bytes of a character start with that character. -/
theorem next_encodeChar (c : Char) (rest : List UInt8) :
    next (String.utf8EncodeChar c ++ rest) = .char c rest := by
  have hv := val_bounds c
  have hc : Char.ofNat c.toNat = c := Char.ofNat_toNat c
  have toNat (n : Nat) (h : n < 256) : (UInt8.ofNat n).toNat = n := UInt8.toNat_ofNat_of_lt' h
  unfold String.utf8EncodeChar
  simp only [show c.val.toNat = c.toNat from rfl]
  generalize c.toNat = v at hv hc
  split
  · -- one byte
    simp only [List.cons_append, List.nil_append, next, toNat v (by omega)]
    rw [if_pos (by omega), hc]
  split
  · -- two bytes
    simp only [List.cons_append, List.nil_append, next, toNat (v / 64 % 32 + 192) (by omega)]
    rw [if_neg (by omega), if_neg (by omega), if_pos (by omega),
      tail_ofNat rest (by omega) (by omega) (by omega), tail]
    rw [show (v / 64 % 32 + 192) % 32 * 64 + v % 64 = v by omega, hc]
  split
  · -- three bytes
    simp only [List.cons_append, List.nil_append, next, toNat (v / 4096 % 16 + 224) (by omega)]
    rw [if_neg (by omega), if_neg (by omega), if_neg (by omega), if_pos (by omega),
      tail_ofNat _ (by omega) (by split <;> omega) (by split <;> omega),
      tail_ofNat _ (by omega) (by omega) (by omega), tail]
    rw [show ((v / 4096 % 16 + 224) % 16 * 64 + v / 64 % 64) * 64 + v % 64 = v by omega, hc]
  · -- four bytes
    simp only [List.cons_append, List.nil_append, next, toNat (v / 262144 % 8 + 240) (by omega)]
    rw [if_neg (by omega), if_neg (by omega), if_neg (by omega), if_neg (by omega),
      if_pos (by omega), tail_ofNat _ (by omega) (by split <;> omega) (by split <;> omega),
      tail_ofNat _ (by omega) (by omega) (by omega),
      tail_ofNat _ (by omega) (by omega) (by omega), tail]
    rw [show (((v / 262144 % 8 + 240) % 8 * 64 + v / 4096 % 64) * 64 + v / 64 % 64) * 64 + v % 64
        = v by omega, hc]

/-- **Decoding undoes encoding**, and leaves nothing over. -/
theorem decode_encode : ∀ cs : List Char, decode (encode cs) = some (cs, [])
  | [] => rfl
  | c :: cs => by
    rw [decode_eq, encode, List.flatMap_cons, next_encodeChar]
    show Option.map _ (decode (encode cs)) = _
    rw [decode_encode cs]
    rfl

theorem decodeAll?_encode (cs : List Char) : decodeAll? (encode cs) = some cs := by
  rw [decodeAll?, decode_encode]

/-- The bytes of a text are its encoded characters. -/
theorem toUTF8_eq_encode (text : String) : text.toUTF8.data.toList = encode text.toList := by
  rw [String.toUTF8_eq_toByteArray, ← String.utf8Encode_toList, List.utf8Encode,
    List.toList_data_toByteArray]
  rfl

end Utf8

theorem Source.readText_of_readBytes {s : Source} {bytes : List UInt8}
    (h : s.readBytes = .ok bytes) :
    s.readText = (Utf8.decodeAll? bytes).elim (.error .invalidUtf8) (.ok <| .ofList ·) := by
  rw [readText, h]
  cases hd : Utf8.decodeAll? bytes <;> simp [bind, Except.bind, hd]

/-- A source of a text is read as that text. -/
theorem Source.readText_ofText (text : String) : (Source.ofText text).readText = .ok text := by
  have hb : (Source.ofText text).readBytes = .ok (Utf8.encode text.toList) := by
    rw [Source.ofText, Source.ofBytes, Utf8.toUTF8_eq_encode]
    cases hcs : Utf8.encode text.toList with
    | nil => rfl
    | cons b bs =>
      show Except.map ((b :: bs) ++ ·) (Source.readBytes []) = _
      simp [Source.readBytes, Except.map]
  rw [Source.readText_of_readBytes hb, Utf8.decodeAll?_encode]
  exact congrArg Except.ok String.ofList_toList

end Stencil
