import Mathlib.Data.Nat.Digits.Defs
import Stencil.Proofs.Input.Wellformed
import Stencil.Proofs.Render.PropertyEscape

/-!
# Numeric escapes

Up to four characters behind a backslash and `u` are read as the number of a UTF-16 unit, and what is
no number stays as it is written.  A plus sign may stand in front of the digits, and fewer than four
digits make a number too, at the end of a text or behind the sign.

- `Hexadecimal`, `FourDigits`, `UnitNumber`: digits and their number, and what is read as a number;
- `unitValue?_eq_some_iff`: the reader of numbers;
- `Writes`: the character that a unit writes, or a pair of units;
- `Resolves`: what an escaped text stands for, given what is taken for the number of a unit;
- `Reaches`: where the reading of a text comes to a backslash and `u`; `Exact`: only four digits are
  taken for numbers there;
- `unescape_resolves`: **an escaped text stands for what it is resolved to**, and for nothing else;
- `not_resolves_fourDigits`: four digits are not asked for.
-/

namespace Stencil.Properties

open Number

/-! ## Numbers -/

/-- Hexadecimal digits, and the number that they write. -/
def Hexadecimal (digits : List Char) (n : Nat) : Prop :=
  ∃ ds : List Nat, digits.map hexValue? = ds.map some ∧ n = Nat.ofDigits 16 ds.reverse

/-- Four hexadecimal digits, and their number. -/
def FourDigits (digits : List Char) (n : Nat) : Prop := digits.length = 4 ∧ Hexadecimal digits n

/-- What is read as the number of a unit: digits, which may have a plus sign in front. -/
def UnitNumber (digits : List Char) (n : Nat) : Prop :=
  ∃ sign hexes, digits = sign ++ hexes ∧ (sign = [] ∨ sign = ['+']) ∧ hexes ≠ [] ∧
    Hexadecimal hexes n

theorem hexValue?_lt {c : Char} {d : Nat} (h : hexValue? c = some d) : d < 16 := by
  have upTo {a b : Char} (hc : a ≤ c ∧ c ≤ b) : c.toNat ≤ b.toNat := hc.2
  unfold hexValue? at h
  split at h
  · next hc =>
    have : c.toNat ≤ 57 := upTo hc
    simp only [Option.some.injEq] at h
    omega
  · split at h
    · next hc =>
      have : c.toNat ≤ 102 := upTo hc
      simp only [Option.some.injEq] at h
      omega
    · split at h
      · next hc =>
        have : c.toNat ≤ 70 := upTo hc
        simp only [Option.some.injEq] at h
        omega
      · cases h

theorem hexadecimal_nil {n : Nat} : Hexadecimal [] n ↔ n = 0 := by
  constructor
  · rintro ⟨ds, hds, rfl⟩
    obtain rfl := List.map_eq_nil_iff.mp hds.symm
    rfl
  · rintro rfl
    exact ⟨[], rfl, rfl⟩

theorem hexadecimal_cons {c : Char} {digits : List Char} {n : Nat} :
    Hexadecimal (c :: digits) n ↔
      ∃ d m, hexValue? c = some d ∧ Hexadecimal digits m ∧ n = 16 ^ digits.length * d + m := by
  constructor
  · rintro ⟨_ | ⟨d, ds⟩, hds, rfl⟩
    · cases hds
    · obtain ⟨hc, hrest⟩ := List.cons.inj hds
      have hlength : digits.length = ds.length := by simpa using congrArg List.length hrest
      refine ⟨d, _, hc, ⟨ds, hrest, rfl⟩, ?_⟩
      rw [Nat.ofDigits_reverse_cons, hlength, Nat.add_comm]
  · rintro ⟨d, m, hc, ⟨ds, hrest, rfl⟩, rfl⟩
    have hlength : digits.length = ds.length := by simpa using congrArg List.length hrest
    refine ⟨d :: ds, by rw [List.map_cons, hc, hrest]; rfl, ?_⟩
    rw [Nat.ofDigits_reverse_cons, hlength, Nat.add_comm]

/-- Digits write a number with no more digits. -/
theorem Hexadecimal.lt {digits : List Char} {n : Nat} (h : Hexadecimal digits n) :
    n < 16 ^ digits.length := by
  induction digits generalizing n with
  | nil =>
    rw [hexadecimal_nil.mp h]
    exact Nat.one_pos
  | cons c digits ih =>
    obtain ⟨d, m, hc, hm, rfl⟩ := hexadecimal_cons.mp h
    have hd := Nat.mul_le_mul_left (16 ^ digits.length) (Nat.le_of_lt_succ (hexValue?_lt hc))
    have := ih hm
    rw [List.length_cons, Nat.pow_succ]
    omega

/-- The digits are read from left to right. -/
theorem foldlM_hexValue? (digits : List Char) :
    ∀ k n, digits.foldlM (fun n c => (hexValue? c).map (n * 16 + ·)) k = some n ↔
      ∃ m, Hexadecimal digits m ∧ n = 16 ^ digits.length * k + m := by
  induction digits with
  | nil =>
    intro k n
    simp [hexadecimal_nil, eq_comm]
  | cons c digits ih =>
    intro k n
    rw [List.foldlM_cons, Option.bind_eq_bind, Option.bind_eq_some_iff]
    simp only [Option.map_eq_some_iff, ih, hexadecimal_cons, List.length_cons]
    have value (d m : Nat) : 16 ^ digits.length * (k * 16 + d) + m =
        16 ^ (digits.length + 1) * k + (16 ^ digits.length * d + m) := by
      rw [Nat.pow_succ, Nat.mul_add, Nat.mul_assoc, Nat.mul_comm k, Nat.add_assoc]
    constructor
    · rintro ⟨_, ⟨d, hc, rfl⟩, m, hm, rfl⟩
      exact ⟨_, ⟨d, m, hc, hm, rfl⟩, value d m⟩
    · rintro ⟨_, ⟨d, m, hc, hm, rfl⟩, rfl⟩
      exact ⟨_, ⟨d, hc, rfl⟩, m, hm, (value d m).symm⟩

/-- The digits of a number, without a sign. -/
theorem unsigned_iff {digits : List Char} {n : Nat} :
    (if digits.isEmpty then none
      else digits.foldlM (fun n c => (hexValue? c).map (n * 16 + ·)) 0) = some n ↔
      digits ≠ [] ∧ Hexadecimal digits n := by
  cases digits with
  | nil => simp
  | cons c digits =>
    rw [List.isEmpty_cons, if_neg Bool.false_ne_true, foldlM_hexValue?]
    simp

theorem hexValue?_plus : hexValue? '+' = none := by decide

/-- **A number of a unit is read**, and nothing else is. -/
theorem unitValue?_eq_some_iff {digits : List Char} {n : Nat} :
    unitValue? digits = some n ↔ UnitNumber digits n := by
  unfold unitValue?
  split
  · next d rest =>
    rw [unsigned_iff]
    constructor
    · rintro ⟨hne, h⟩
      exact ⟨['+'], d :: rest, rfl, .inr rfl, hne, h⟩
    · rintro ⟨sign, hexes, heq, rfl | rfl, hne, h⟩
      · obtain rfl : _ = hexes := heq
        obtain ⟨_, _, hc, -⟩ := hexadecimal_cons.mp h
        rw [hexValue?_plus] at hc
        cases hc
      · obtain rfl : d :: rest = hexes := (List.cons.inj heq).2
        exact ⟨hne, h⟩
  · next hunsigned =>
    rw [unsigned_iff]
    constructor
    · rintro ⟨hne, h⟩
      exact ⟨[], digits, rfl, .inl rfl, hne, h⟩
    · rintro ⟨sign, hexes, rfl, rfl | rfl, hne, h⟩
      · exact ⟨hne, h⟩
      · obtain ⟨d, rest, rfl⟩ := List.exists_cons_of_ne_nil hne
        exact absurd rfl (hunsigned d rest)

/-- A number of a unit has no more digits than characters. -/
theorem UnitNumber.lt {digits : List Char} {n : Nat} (h : UnitNumber digits n) :
    n < 16 ^ digits.length := by
  obtain ⟨sign, hexes, rfl, -, -, h⟩ := h
  refine Nat.lt_of_lt_of_le h.lt (Nat.pow_le_pow_right (by decide) ?_)
  rw [List.length_append]
  exact Nat.le_add_left _ _

/-- Four digits are numbers of units, and the others have a sign or fewer digits. -/
theorem fourDigits_iff {digits : List Char} {n : Nat} :
    FourDigits digits n ↔ UnitNumber digits n ∧ digits.length = 4 ∧ digits.head? ≠ some '+' := by
  constructor
  · rintro ⟨hlength, h⟩
    have hne : digits ≠ [] := by
      rintro rfl
      cases hlength
    refine ⟨⟨[], digits, rfl, .inl rfl, hne, h⟩, hlength, fun hplus => ?_⟩
    obtain ⟨rest, rfl⟩ := List.head?_eq_some_iff.mp hplus
    obtain ⟨_, _, hc, -⟩ := hexadecimal_cons.mp h
    rw [hexValue?_plus] at hc
    cases hc
  · rintro ⟨⟨sign, hexes, rfl, rfl | rfl, -, h⟩, hlength, hplus⟩
    · exact ⟨hlength, h⟩
    · exact absurd rfl hplus

/-- A number that needs four digits has them, and no sign. -/
theorem UnitNumber.fourDigits {digits : List Char} {n : Nat} (h : UnitNumber digits n)
    (hshort : digits.length ≤ 4) (hn : 16 ^ 3 ≤ n) : FourDigits digits n := by
  obtain ⟨sign, hexes, rfl, hsign, -, h⟩ := h
  have hlong : 4 ≤ hexes.length := by
    by_contra hfewer
    have hpow : 16 ^ hexes.length ≤ 16 ^ 3 := Nat.pow_le_pow_right (by decide) (by omega)
    have := h.lt
    omega
  rw [List.length_append] at hshort
  obtain rfl : sign = [] := List.eq_nil_of_length_eq_zero (by omega)
  exact ⟨Nat.le_antisymm (by simpa using hshort) hlong, h⟩

theorem FourDigits.unitNumber {digits : List Char} {n : Nat} (h : FourDigits digits n) :
    UnitNumber digits n := (fourDigits_iff.mp h).1

/-! ## Characters -/

/-- The character that is written behind a backslash and `u`, and what follows it: by its unit, or by
its surrogate pair.  `number` says what is taken for the number of a unit. -/
inductive Writes (number : List Char → Nat → Prop) : List Char → Char → List Char → Prop where
  | unit {rest : List Char} {c : Char} {n : Nat} (h : number (rest.take 4) n)
    (written : units c = [n]) : Writes number rest c (rest.drop 4)
  | pair {rest behind : List Char} {c : Char} {high low : Nat} (h : number (rest.take 4) high)
    (next : rest.drop 4 = '\\' :: 'u' :: behind) (h' : number (behind.take 4) low)
    (written : units c = [high, low]) : Writes number rest c (behind.drop 4)

variable {number : List Char → Nat → Prop} {rest behind : List Char} {c : Char}

theorem Writes.length_le (h : Writes number rest c behind) : behind.length ≤ rest.length := by
  cases h with
  | unit =>
    rw [List.length_drop]
    exact Nat.sub_le _ _
  | pair h next =>
    have hdrop := congrArg List.length next
    simp only [List.length_drop, List.length_cons] at hdrop ⊢
    omega

/-- A character of one unit is no surrogate. -/
theorem units_eq_unit {n : Nat} :
    units c = [n] ↔ n < 0x10000 ∧ isHighSurrogate n = false ∧ isLowSurrogate n = false ∧
      c = Char.ofNat n := by
  have hvalid : c.toNat < 0xD800 ∨ 0xDFFF < c.toNat ∧ c.toNat < 0x110000 := c.valid
  unfold units
  constructor
  · intro h
    split at h
    · next hshort =>
      obtain rfl : c.toNat = n := List.singleton_inj.mp h
      refine ⟨hshort, ?_, ?_, (Char.ofNat_toNat c).symm⟩
      · simp only [isHighSurrogate, Bool.and_eq_false_iff, decide_eq_false_iff_not]
        omega
      · simp only [isLowSurrogate, Bool.and_eq_false_iff, decide_eq_false_iff_not]
        omega
    · cases h
  · rintro ⟨hn, hhigh, hlow, rfl⟩
    simp only [isHighSurrogate, isLowSurrogate, Bool.and_eq_false_iff,
      decide_eq_false_iff_not] at hhigh hlow
    have hnat : (Char.ofNat n).toNat = n := Utf8.toNat_val_ofNat (by omega)
    rw [hnat, if_pos hn]

/-- A character of two units is written by a surrogate pair. -/
theorem units_eq_pair {high low : Nat} :
    units c = [high, low] ↔ isHighSurrogate high = true ∧ isLowSurrogate low = true ∧
      c = Char.ofNat (0x10000 + (high - 0xD800) * 0x400 + (low - 0xDC00)) := by
  have hvalid : c.toNat < 0xD800 ∨ 0xDFFF < c.toNat ∧ c.toNat < 0x110000 := c.valid
  simp only [isHighSurrogate, isLowSurrogate, Bool.and_eq_true, decide_eq_true_eq]
  unfold units
  constructor
  · intro h
    split at h
    · cases h
    · next hlong =>
      obtain ⟨hhigh, hlow⟩ := List.cons.inj h
      obtain rfl := hhigh
      obtain rfl := (List.cons.inj hlow).1
      refine ⟨by omega, by omega, ?_⟩
      calc
        c = Char.ofNat c.toNat := (Char.ofNat_toNat c).symm
        _ = _ := congrArg Char.ofNat (by omega)
  · rintro ⟨hhigh, hlow, hc⟩
    -- the sum is named, so that it is not computed
    generalize hsum : 0x10000 + (high - 0xD800) * 0x400 + (low - 0xDC00) = n at hc
    subst hc
    have hnat : (Char.ofNat n).toNat = n := Utf8.toNat_val_ofNat (by omega)
    have hunits : 0xD800 + (n - 0x10000) / 0x400 = high ∧ 0xDC00 + (n - 0x10000) % 0x400 = low := by
      omega
    rw [hnat, if_neg (by omega), hunits.1, hunits.2]

/-- A low surrogate has four digits anyway. -/
theorem lowSurrogate?_eq_some_iff {next : List Char} {low : Nat} :
    lowSurrogate? next = some (low, behind) ↔
      ∃ after, next = '\\' :: 'u' :: after ∧ UnitNumber (after.take 4) low ∧
        isLowSurrogate low = true ∧ behind = after.drop 4 := by
  constructor
  · intro h
    unfold lowSurrogate? at h
    split at h
    · obtain ⟨unit, hunit, h⟩ := Option.bind_eq_some_iff.mp h
      split at h
      · next hlow =>
        cases h
        exact ⟨_, rfl, unitValue?_eq_some_iff.mp hunit, hlow, rfl⟩
      · cases h
    · cases h
  · rintro ⟨after, rfl, h, hlow, rfl⟩
    have hlong : 4 ≤ (after.take 4).length := by
      simp only [isLowSurrogate, Bool.and_eq_true, decide_eq_true_eq] at hlow
      exact (h.fourDigits (List.length_take_le ..) (by omega)).1.ge
    rcases after with _ | ⟨a, _ | ⟨b, _ | ⟨c, _ | ⟨d, rest⟩⟩⟩⟩
    iterate 4 exact absurd hlong (by simp)
    show ((unitValue? [a, b, c, d]).bind fun unit =>
      if isLowSurrogate unit then some (unit, rest) else none) = some (low, rest)
    have hunit : unitValue? [a, b, c, d] = some low := unitValue?_eq_some_iff.mpr h
    rw [hunit, Option.bind_some, if_pos hlow]

/-- **The reader finds the character that is written**, if there is one. -/
theorem writes_iff :
    Writes UnitNumber rest c behind ↔
      (unitValue? (rest.take 4)).bind (unitChar? · (rest.drop 4)) = some (c, behind) := by
  rw [Option.bind_eq_some_iff]
  simp only [unitValue?_eq_some_iff]
  constructor
  · intro h
    cases h with
    | unit h written =>
      obtain ⟨-, hhigh, hlow, rfl⟩ := units_eq_unit.mp written
      refine ⟨_, h, ?_⟩
      rw [unitChar?, hhigh, hlow]
      rfl
    | pair h next h' written =>
      obtain ⟨hhigh, hlow, hc⟩ := units_eq_pair.mp written
      refine ⟨_, h, ?_⟩
      rw [unitChar?, if_pos hhigh, lowSurrogate?_eq_some_iff.mpr ⟨_, next, h', hlow, rfl⟩, hc]
      rfl
  · rintro ⟨n, h, hchar⟩
    have hn : n < 0x10000 := by
      have hpow : 16 ^ (rest.take 4).length ≤ 16 ^ 4 :=
        Nat.pow_le_pow_right (by decide) (List.length_take_le ..)
      exact Nat.lt_of_lt_of_le h.lt hpow
    unfold unitChar? at hchar
    split at hchar
    · next hhigh =>
      obtain ⟨⟨low, after⟩, hfound, heq⟩ := Option.map_eq_some_iff.mp hchar
      obtain ⟨rfl, rfl⟩ := Prod.mk.inj heq
      obtain ⟨next, hnext, h', hlow, rfl⟩ := lowSurrogate?_eq_some_iff.mp hfound
      exact .pair h hnext h' (units_eq_pair.mpr ⟨hhigh, hlow, rfl⟩)
    · next hhigh =>
      split at hchar
      · cases hchar
      · next hlow =>
        obtain ⟨rfl, rfl⟩ := Prod.mk.inj (Option.some.inj hchar)
        rw [Bool.not_eq_true] at hhigh hlow
        exact .unit h (units_eq_unit.mpr ⟨hn, hhigh, hlow, rfl⟩)

/-- A character by four digits is one by numbers of units. -/
theorem Writes.of_fourDigits (h : Writes FourDigits rest c behind) :
    Writes UnitNumber rest c behind := by
  cases h with
  | unit h written => exact .unit h.unitNumber written
  | pair h next h' written => exact .pair h.unitNumber next h'.unitNumber written

/-- A surrogate pair is written by four digits anyway. -/
theorem Writes.fourDigits_or (h : Writes UnitNumber rest c behind) :
    Writes FourDigits rest c behind ∨ behind = rest.drop 4 := by
  cases h with
  | unit => exact .inr rfl
  | pair h next h' written =>
    obtain ⟨hhigh, hlow, -⟩ := units_eq_pair.mp written
    simp only [isHighSurrogate, isLowSurrogate, Bool.and_eq_true, decide_eq_true_eq] at hhigh hlow
    exact .inl (.pair (h.fourDigits (List.length_take_le ..) (by omega)) next
      (h'.fourDigits (List.length_take_le ..) (by omega)) written)

/-- A character is written by four digits when there are four characters, and no sign. -/
theorem Writes.fourDigits_iff (h : Writes UnitNumber rest c behind) :
    Writes FourDigits rest c behind ↔ 4 ≤ rest.length ∧ rest.head? ≠ some '+' := by
  have four {n : Nat} : FourDigits (rest.take 4) n ↔
      UnitNumber (rest.take 4) n ∧ 4 ≤ rest.length ∧ rest.head? ≠ some '+' := by
    rw [Properties.fourDigits_iff, List.length_take, List.head?_take, if_neg (by decide),
      inf_eq_left]
  constructor
  · intro hfour
    cases hfour with
    | unit hnumber => exact (four.mp hnumber).2
    | pair hnumber => exact (four.mp hnumber).2
  · intro hlong
    cases h with
    | unit h written => exact .unit (four.mpr ⟨h, hlong⟩) written
    | pair h next h' written =>
      obtain ⟨-, hlow, -⟩ := units_eq_pair.mp written
      simp only [isLowSurrogate, Bool.and_eq_true, decide_eq_true_eq] at hlow
      exact .pair (four.mpr ⟨h, hlong⟩) next (h'.fourDigits (List.length_take_le ..) (by omega))
        written

/-- There is at most one character. -/
theorem Writes.unique {c' : Char} {behind' : List Char} (h : Writes UnitNumber rest c behind)
    (h' : Writes UnitNumber rest c' behind') : c = c' ∧ behind = behind' := by
  have heq := (writes_iff.mp h).symm.trans (writes_iff.mp h')
  exact Prod.mk.inj (Option.some.inj heq)

/-! ## Texts -/

/-- What an escaped text stands for.  A backslash and `u` that write no character stay as they are,
with the characters that have been taken for a number. -/
inductive Resolves (number : List Char → Nat → Prop) : List Char → List Char → Prop where
  | nil : Resolves number [] []
  | plain {c : Char} {rest out : List Char} (h : c ≠ '\\') (next : Resolves number rest out) :
    Resolves number (c :: rest) (c :: out)
  | letter {c : Char} {rest out : List Char} (h : c ≠ 'u') (next : Resolves number rest out) :
    Resolves number ('\\' :: c :: rest) (letterChar c :: out)
  | lone : Resolves number ['\\'] []
  | decoded {c : Char} {rest behind out : List Char} (h : Writes number rest c behind)
    (next : Resolves number behind out) : Resolves number ('\\' :: 'u' :: rest) (c :: out)
  | literal {rest out : List Char} (h : ∀ c behind, ¬ Writes number rest c behind)
    (next : Resolves number (rest.drop 4) out) :
    Resolves number ('\\' :: 'u' :: rest) ('\\' :: 'u' :: rest.take 4 ++ out)

/-- Every text stands for something, by induction on its length. -/
theorem exists_resolves (number : List Char → Nat → Prop) (s : List Char) :
    ∃ out, Resolves number s out := by
  induction hn : s.length using Nat.strong_induction_on generalizing s with
  | _ n ih =>
    subst hn
    -- what follows a piece of the text is shorter
    have further (behind : List Char) (h : behind.length < s.length) := ih behind.length h behind rfl
    rcases s with _ | ⟨c, rest⟩
    · exact ⟨[], .nil⟩
    rw [List.length_cons] at further
    by_cases hc : c = '\\'
    · subst hc
      rcases rest with _ | ⟨c, rest⟩
      · exact ⟨[], .lone⟩
      rw [List.length_cons] at further
      by_cases hu : c = 'u'
      · subst hu
        by_cases hw : ∃ c behind, Writes number rest c behind
        · obtain ⟨c, behind, hw⟩ := hw
          obtain ⟨out, hout⟩ := further behind (by have := hw.length_le; omega)
          exact ⟨_, .decoded hw hout⟩
        · obtain ⟨out, hout⟩ := further (rest.drop 4) (by rw [List.length_drop]; omega)
          exact ⟨_, .literal (fun c behind h => hw ⟨c, behind, h⟩) hout⟩
      · obtain ⟨out, hout⟩ := further rest (by omega)
        exact ⟨_, .letter hu hout⟩
    · obtain ⟨out, hout⟩ := further rest (by omega)
      exact ⟨_, .plain hc hout⟩

/-- The reader goes through the same pieces; by induction on them. -/
theorem Resolves.unescapeFrom_eq {s out : List Char} (h : Resolves UnitNumber s out) :
    ∀ fuel, s.length ≤ fuel → unescapeFrom fuel s = out := by
  induction h with
  | nil =>
    intro fuel _
    cases fuel <;> rfl
  | plain hc _ ih =>
    rintro (_ | fuel) hfuel
    · cases hfuel
    rw [unescapeFrom, ih fuel (Nat.le_of_succ_le_succ hfuel)]
    · exact fun _ h _ => hc h
    · exact fun _ _ h _ => hc h
    · exact fun h _ => hc h
  | letter hu _ ih =>
    rintro (_ | fuel) hfuel
    · cases hfuel
    rw [unescapeFrom, ih fuel (Nat.le_of_succ_le (Nat.le_of_succ_le_succ hfuel))]
    exact fun h => hu h
  | lone =>
    rintro (_ | fuel) hfuel
    · cases hfuel
    rfl
  | @decoded c rest behind out hw _ ih =>
    rintro (_ | fuel) hfuel
    · cases hfuel
    have hle := hw.length_le
    simp only [List.length_cons] at hfuel
    rw [unescapeFrom]
    simp only [writes_iff.mp hw]
    rw [ih fuel (by omega)]
  | @literal rest out hw _ ih =>
    rintro (_ | fuel) hfuel
    · cases hfuel
    have hnone : (unitValue? (rest.take 4)).bind (unitChar? · (rest.drop 4)) = none := by
      rw [Option.eq_none_iff_forall_ne_some]
      rintro ⟨c, behind⟩ h
      exact hw c behind (writes_iff.mpr h)
    simp only [List.length_cons] at hfuel
    rw [unescapeFrom]
    simp only [hnone]
    rw [ih fuel (by rw [List.length_drop]; omega)]

/-- Reading a text comes to a backslash and `u`, and this stands behind them. -/
inductive Reaches : List Char → List Char → Prop where
  | here {rest : List Char} : Reaches ('\\' :: 'u' :: rest) rest
  | plain {c : Char} {s rest : List Char} (h : c ≠ '\\') (next : Reaches s rest) :
    Reaches (c :: s) rest
  | letter {c : Char} {s rest : List Char} (h : c ≠ 'u') (next : Reaches s rest) :
    Reaches ('\\' :: c :: s) rest
  | decoded {c : Char} {s behind rest : List Char} (h : Writes UnitNumber s c behind)
    (next : Reaches behind rest) : Reaches ('\\' :: 'u' :: s) rest
  | literal {s rest : List Char} (h : ∀ c behind, ¬ Writes UnitNumber s c behind)
    (next : Reaches (s.drop 4) rest) : Reaches ('\\' :: 'u' :: s) rest

/-- Each number that is taken in a text has four digits. -/
def Exact (s : List Char) : Prop :=
  ∀ rest c behind, Reaches s rest → Writes UnitNumber rest c behind → Writes FourDigits rest c behind

namespace Exact

theorem plain {c : Char} {s : List Char} (hc : c ≠ '\\') : Exact (c :: s) ↔ Exact s := by
  constructor
  · intro h rest c' behind hr
    exact h rest c' behind (.plain hc hr)
  · intro h rest c' behind hr
    cases hr with
    | plain _ hr => exact h rest c' behind hr
    | _ => exact absurd rfl hc

theorem letter {c : Char} {s : List Char} (hu : c ≠ 'u') : Exact ('\\' :: c :: s) ↔ Exact s := by
  constructor
  · intro h rest c' behind hr
    exact h rest c' behind (.letter hu hr)
  · intro h rest c' behind hr
    cases hr with
    | plain hc => exact absurd rfl hc
    | letter _ hr => exact h rest c' behind hr
    | _ => exact absurd rfl hu

theorem decoded {c : Char} {s behind : List Char} (hw : Writes UnitNumber s c behind) :
    Exact ('\\' :: 'u' :: s) ↔ Writes FourDigits s c behind ∧ Exact behind := by
  constructor
  · intro h
    exact ⟨h s c behind .here hw, fun rest c' behind' hr => h rest c' behind' (.decoded hw hr)⟩
  · rintro ⟨hfour, h⟩ rest c' behind' hr hw'
    cases hr with
    | here =>
      obtain ⟨rfl, rfl⟩ := hw.unique hw'
      exact hfour
    | plain hc => exact absurd rfl hc
    | letter hu => exact absurd rfl hu
    | decoded hw'' hr =>
      obtain ⟨rfl, rfl⟩ := hw.unique hw''
      exact h rest c' behind' hr hw'
    | literal hnot => exact absurd hw (hnot _ _)

theorem literal {s : List Char} (hnot : ∀ c behind, ¬ Writes UnitNumber s c behind) :
    Exact ('\\' :: 'u' :: s) ↔ Exact (s.drop 4) := by
  constructor
  · intro h rest c behind hr
    exact h rest c behind (.literal hnot hr)
  · intro h rest c behind hr hw
    cases hr with
    | here => exact absurd hw (hnot _ _)
    | plain hc => exact absurd rfl hc
    | letter hu => exact absurd rfl hu
    | decoded hw' => exact absurd hw' (hnot _ _)
    | literal _ hr => exact h rest c behind hr hw

end Exact

/-- Where all numbers have four digits, it does not matter that others are taken. -/
theorem Resolves.of_exact {s out : List Char} (h : Resolves UnitNumber s out) (hs : Exact s) :
    Resolves FourDigits s out := by
  induction h with
  | nil => exact .nil
  | plain hc _ ih => exact .plain hc (ih ((Exact.plain hc).mp hs))
  | letter hu _ ih => exact .letter hu (ih ((Exact.letter hu).mp hs))
  | lone => exact .lone
  | decoded hw _ ih =>
    obtain ⟨hfour, hbehind⟩ := (Exact.decoded hw).mp hs
    exact .decoded hfour (ih hbehind)
  | literal hnot _ ih =>
    exact .literal (fun c behind h => hnot c behind h.of_fourDigits)
      (ih ((Exact.literal hnot).mp hs))

/-- A number of other digits makes the text shorter than four digits would.  By induction on what is
read. -/
theorem Resolves.exact_of_length {s out out' : List Char} (h : Resolves UnitNumber s out)
    (h' : Resolves FourDigits s out') :
    out.length ≤ out'.length ∧ (out'.length ≤ out.length → Exact s) := by
  induction h generalizing out' with
  | nil =>
    cases h'
    exact ⟨Nat.le_refl _, fun _ _ _ _ hr => nomatch hr⟩
  | lone =>
    refine ⟨Nat.zero_le _, fun _ => (?_ : Exact ['\\'])⟩
    rintro rest c behind (_ | hc)
    exact absurd rfl hc
  | plain hc _ ih =>
    cases h' with
    | plain _ next' =>
      obtain ⟨hle, hexact⟩ := ih next'
      exact ⟨Nat.succ_le_succ hle,
        fun hlength => (Exact.plain hc).mpr (hexact (Nat.le_of_succ_le_succ hlength))⟩
    | _ => exact absurd rfl hc
  | letter hu _ ih =>
    cases h' with
    | plain hc => exact absurd rfl hc
    | letter _ next' =>
      obtain ⟨hle, hexact⟩ := ih next'
      exact ⟨Nat.succ_le_succ hle,
        fun hlength => (Exact.letter hu).mpr (hexact (Nat.le_of_succ_le_succ hlength))⟩
    | _ => exact absurd rfl hu
  | decoded hw _ ih =>
    cases h' with
    | plain hc => exact absurd rfl hc
    | letter hu => exact absurd rfl hu
    | decoded hfour next' =>
      obtain ⟨rfl, rfl⟩ := hw.unique hfour.of_fourDigits
      obtain ⟨hle, hexact⟩ := ih next'
      exact ⟨Nat.succ_le_succ hle, fun hlength =>
        (Exact.decoded hw).mpr ⟨hfour, hexact (Nat.le_of_succ_le_succ hlength)⟩⟩
    | literal hnot next' =>
      -- what follows is the same, and one character stands where at least two have been kept
      obtain rfl := hw.fourDigits_or.resolve_left (hnot _ _)
      have hle := (ih next').1
      simp only [List.cons_append, List.length_cons, List.length_append]
      omega
  | literal hnot _ ih =>
    cases h' with
    | plain hc => exact absurd rfl hc
    | letter hu => exact absurd rfl hu
    | decoded hfour => exact absurd hfour.of_fourDigits (hnot _ _)
    | literal _ next' =>
      obtain ⟨hle, hexact⟩ := ih next'
      simp only [List.cons_append, List.length_cons, List.length_append]
      exact ⟨by omega, fun hlength => (Exact.literal hnot).mpr (hexact (by omega))⟩

/-- **An escaped text stands for what it is resolved to**, and for nothing else: numbers of units are
decoded, alone or in a surrogate pair, and every other backslash and `u` stays as it is.  That is what
four digits would be resolved to exactly where no other number is decoded, which would be one with a
plus sign or with fewer than four characters. -/
theorem unescape_resolves (s : List Char) :
    (∀ out, Resolves UnitNumber s out ↔ (unescape s).toList = out) ∧
      (Resolves FourDigits s (unescape s).toList ↔
        ∀ rest c behind, Reaches s rest → Writes UnitNumber rest c behind →
          4 ≤ rest.length ∧ rest.head? ≠ some '+') := by
  have resolves (out : List Char) : Resolves UnitNumber s out ↔ (unescape s).toList = out := by
    rw [unescape, String.toList_ofList]
    constructor
    · intro h
      exact h.unescapeFrom_eq s.length (Nat.le_refl _)
    · rintro rfl
      obtain ⟨out, h⟩ := exists_resolves UnitNumber s
      rwa [h.unescapeFrom_eq s.length (Nat.le_refl _)]
  have taken := (resolves _).mpr rfl
  refine ⟨resolves, ?_⟩
  constructor
  · intro h rest c behind hr hw
    exact hw.fourDigits_iff.mp ((taken.exact_of_length h).2 (Nat.le_refl _) rest c behind hr hw)
  · intro h
    exact taken.of_exact fun rest c behind hr hw => hw.fourDigits_iff.mpr (h rest c behind hr hw)

/-- Not only four digits are decoded: a plus sign and three digits write a character. -/
theorem not_resolves_fourDigits : ¬ ∀ s, Resolves FourDigits s (unescape s).toList := by
  intro h
  have hplus := h ['\\', 'u', '+', '0', '4', '1']
  rw [show (unescape ['\\', 'u', '+', '0', '4', '1']).toList = ['A'] by decide] at hplus
  cases hplus with
  | decoded hw =>
    cases hw with
    | unit h => exact (fourDigits_iff.mp h).2.2 rfl
    | pair h => exact (fourDigits_iff.mp h).2.2 rfl

end Stencil.Properties
