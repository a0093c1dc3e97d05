import Stencil.Proofs.Text.Cut
import Stencil.Render.Properties

/-!
# Escaped keys and values

A property list is read in stages that each give a meaning of their own to some characters: lines
are joined behind a backslash, the key is cut off at a separator, blanks are dropped and escapes are
resolved.  A writer escapes each character so that every stage but the last one passes over it.

- `Properties.escapeChar`, `Properties.escape`: how a writer escapes characters and texts;
- `Properties.Escaped`: the four ways in which a character is escaped; each stage is gone through by
  these, with what follows the character as a parameter;
- `trimStart_escape`, `isContinued_escape`, `splitEntry_escape`: the stages that pass over an
  escaped text;
- `unescape_escape`: **an escaped text is resolved to the text**.
-/

namespace Stencil.Properties

open Number Text

/-! ## Writing -/

/-- A hexadecimal digit, with capital or small letters. -/
def hexDigit (capital : Bool) (d : Nat) : Char :=
  if d < 10 then Char.ofNat (48 + d) else Char.ofNat ((if capital then 55 else 87) + d)

/-- A UTF-16 unit as an escape of four digits. -/
def unitEscape (capital : Bool) (unit : Nat) : List Char :=
  '\\' :: 'u' :: [unit / 0x1000 % 16, unit / 0x100 % 16, unit / 0x10 % 16, unit % 16].map
    (hexDigit capital)

/-- The UTF-16 units of a character: one, or a surrogate pair. -/
def units (c : Char) : List Nat :=
  if c.toNat < 0x10000 then [c.toNat]
  else [0xD800 + (c.toNat - 0x10000) / 0x400, 0xDC00 + (c.toNat - 0x10000) % 0x400]

/-- The characters that are written behind a backslash. -/
def marked : List Char := [' ', '\\', '=', ':', '#', '!']

/-- Escapes a character.  Printable characters of ASCII that are not marked stand for themselves. -/
def escapeChar (capital : Bool) : Char → List Char
  | '\t' => ['\\', 't']
  | '\n' => ['\\', 'n']
  | '\r' => ['\\', 'r']
  | '\x0c' => ['\\', 'f']
  | c =>
    if c ∈ marked then ['\\', c]
    else if 0x20 ≤ c.toNat ∧ c.toNat ≤ 0x7E then [c]
    else (units c).flatMap (unitEscape capital)

/-- Escapes a text. -/
def escape (capital : Bool) (s : String) : List Char := s.toList.flatMap (escapeChar capital)

/-! ## The ways to escape a character -/

/-- A character that no stage of reading gives a meaning to. -/
def Inert (c : Char) : Prop := 0x21 ≤ c.toNat ∧ c.toNat ≤ 0x7E ∧ c ∉ marked

instance (c : Char) : Decidable (Inert c) := inferInstanceAs (Decidable (_ ∧ _))

/-- How a character is escaped: with a letter or with itself behind a backslash, as it stands, by
its unit, or by its surrogate pair. -/
inductive Escaped (capital : Bool) : Char → List Char → Prop where
  | letter {c x : Char} (stands : letterChar x = c) (ascii : 0x20 ≤ x.toNat ∧ x.toNat ≤ 0x7E)
    (lettered : x ≠ 'u') : Escaped capital c ['\\', x]
  | plain {c : Char} (inert : Inert c) : Escaped capital c [c]
  | unit {c : Char} (short : c.toNat < 0x10000) : Escaped capital c (unitEscape capital c.toNat)
  | pair {c : Char} (long : 0x10000 ≤ c.toNat) :
    Escaped capital c (unitEscape capital (0xD800 + (c.toNat - 0x10000) / 0x400) ++
      unitEscape capital (0xDC00 + (c.toNat - 0x10000) % 0x400))

theorem escaped_escapeChar (capital : Bool) (c : Char) :
    Escaped capital c (escapeChar capital c) := by
  unfold escapeChar
  split
  case h_5 =>
    by_cases hm : c ∈ marked
    · rw [if_pos hm]
      have all : marked.all fun x =>
          decide (letterChar x = x ∧ (0x20 ≤ x.toNat ∧ x.toNat ≤ 0x7E) ∧ x ≠ 'u') := by
        decide
      obtain ⟨hstands, hascii, hletter⟩ := of_decide_eq_true (List.all_eq_true.mp all c hm)
      exact .letter hstands hascii hletter
    · rw [if_neg hm]
      by_cases hascii : 0x20 ≤ c.toNat ∧ c.toNat ≤ 0x7E
      · rw [if_pos hascii]
        -- a blank is marked
        have hblank : c.toNat ≠ 0x20 := by
          intro h
          have hc : c = ' ' := Char.toNat_inj.mp h
          exact hm (hc ▸ by decide)
        exact .plain ⟨by omega, hascii.2, hm⟩
      · rw [if_neg hascii, units]
        by_cases hshort : c.toNat < 0x10000
        · rw [if_pos hshort, List.flatMap_singleton]
          exact .unit hshort
        · rw [if_neg hshort, List.flatMap_cons, List.flatMap_singleton]
          exact .pair (Nat.le_of_not_lt hshort)
  all_goals exact .letter rfl (by decide) (by decide)

theorem hexDigit_spec : ∀ capital, ∀ d < 16,
    hexValue? (hexDigit capital d) = some d ∧ Inert (hexDigit capital d) ∧
      hexDigit capital d ≠ '+' := by
  decide

theorem inert_hexDigit (capital : Bool) (n : Nat) : Inert (hexDigit capital (n % 16)) :=
  (hexDigit_spec capital _ (Nat.mod_lt _ (by decide))).2.1

/-- An inert character is none of those that a stage of reading looks for. -/
theorem Inert.ne {c d : Char} (h : Inert c) (hd : d ∈ marked) : c ≠ d := by
  rintro rfl
  exact h.2.2 hd

theorem isBlank_eq_false {c : Char} (h : 0x21 ≤ c.toNat) (h' : c.toNat ≤ 0x7E) :
    isBlank c = false := by
  simp [isBlank, blankRanges]
  omega

theorem Inert.isBlank {c : Char} (h : Inert c) : isBlank c = false := isBlank_eq_false h.1 h.2.1

/-- The escape of a unit is a backslash and inert characters. -/
theorem unitEscape_eq (capital : Bool) (unit : Nat) :
    ∃ ds, unitEscape capital unit = '\\' :: 'u' :: ds ∧ (∀ d ∈ ds, Inert d) ∧ ds ≠ [] := by
  refine ⟨_, rfl, fun d hd => ?_, List.cons_ne_nil _ _⟩
  obtain ⟨n, hn, rfl⟩ := List.mem_map.mp hd
  simp only [List.mem_cons, List.not_mem_nil, or_false] at hn
  rcases hn with rfl | rfl | rfl | rfl <;> exact inert_hexDigit ..

/-! ## Characters that may stand in an escaped text -/

/-- An escaped text is printable ASCII. -/
theorem Escaped.ascii {capital : Bool} {c : Char} {s : List Char} (h : Escaped capital c s) :
    ∀ d ∈ s, 0x20 ≤ d.toNat ∧ d.toNat ≤ 0x7E := by
  have unit (n : Nat) : ∀ d ∈ unitEscape capital n, 0x20 ≤ d.toNat ∧ d.toNat ≤ 0x7E := by
    obtain ⟨ds, hds, hinert, -⟩ := unitEscape_eq capital n
    rw [hds]
    intro d hd
    rcases List.mem_cons.mp hd with rfl | hd
    · decide
    · rcases List.mem_cons.mp hd with rfl | hd
      · decide
      · exact ⟨Nat.le_of_succ_le (hinert d hd).1, (hinert d hd).2.1⟩
  intro d hd
  cases h with
  | letter stands ascii lettered =>
    rcases List.mem_cons.mp hd with rfl | hd
    · decide
    · exact List.mem_singleton.mp hd ▸ ascii
  | plain inert =>
    obtain rfl := List.mem_singleton.mp hd
    exact ⟨Nat.le_of_succ_le inert.1, inert.2.1⟩
  | unit short => exact unit _ d hd
  | pair long => exact (List.mem_append.mp hd).elim (unit _ d) (unit _ d)

/-- No control character stands in an escaped text. -/
theorem not_mem_escape (capital : Bool) (s : String) {c : Char} (h : c.toNat < 0x20) :
    c ∉ escape capital s := by
  intro hm
  obtain ⟨d, -, hd⟩ := List.mem_flatMap.mp hm
  have := (escaped_escapeChar capital d).ascii c hd
  omega

/-- An escaped character does not start with a blank, nor with the sign of a comment. -/
theorem Escaped.head {capital : Bool} {c : Char} {s : List Char} (h : Escaped capital c s) :
    ∃ d ds, s = d :: ds ∧ isBlank d = false ∧ d ≠ '#' ∧ d ≠ '!' := by
  have backslash : isBlank '\\' = false ∧ '\\' ≠ '#' ∧ '\\' ≠ '!' := by decide
  cases h with
  | letter => exact ⟨'\\', _, rfl, backslash⟩
  | plain inert => exact ⟨c, [], rfl, inert.isBlank, inert.ne (by decide), inert.ne (by decide)⟩
  | unit => exact ⟨'\\', _, rfl, backslash⟩
  | pair => exact ⟨'\\', _, rfl, backslash⟩

/-! ## Blanks -/

theorem trimStart_cons {c : Char} (h : isBlank c = false) (rest : List Char) :
    trimStart (c :: rest) = c :: rest :=
  List.dropWhile_cons_of_neg (by rw [h]; exact Bool.false_ne_true)

theorem trimStart_escape (capital : Bool) (s : String) :
    trimStart (escape capital s) = escape capital s := by
  unfold escape
  cases s.toList with
  | nil => rfl
  | cons c cs =>
    obtain ⟨d, ds, hd, hblank, -⟩ := (escaped_escapeChar capital c).head
    rw [List.flatMap_cons, hd, List.cons_append, trimStart_cons hblank]

/-! ## Continued lines -/

theorem isContinued_concat {c : Char} (h : c ≠ '\\') (s : List Char) :
    isContinued (s ++ [c]) = false := by
  have hnone : ((s ++ [c]).reverse.takeWhile (· = '\\')) = [] := by
    rw [List.reverse_append]
    exact List.takeWhile_cons_of_neg (by simp [h])
  rw [isContinued, hnone]
  rfl

/-- Two backslashes do not change the parity. -/
theorem isContinued_backslashes (s : List Char) :
    isContinued (s ++ ['\\', '\\']) = isContinued s := by
  have htwo : ((s ++ ['\\', '\\']).reverse.takeWhile (· = '\\')) =
      '\\' :: '\\' :: s.reverse.takeWhile (· = '\\') := by
    rw [List.reverse_append]
    rfl
  rw [isContinued, isContinued, htwo, List.length_cons, List.length_cons, Nat.add_assoc,
    Nat.add_mod_right]

/-- An escaped character ends no line with an odd backslash. -/
theorem Escaped.isContinued {capital : Bool} {c : Char} {s : List Char} (h : Escaped capital c s)
    {before : List Char} (hb : isContinued before = false) : isContinued (before ++ s) = false := by
  have unit (before : List Char) (n : Nat) :
      Properties.isContinued (before ++ unitEscape capital n) = false := by
    obtain ⟨ds, hds, hinert, hne⟩ := unitEscape_eq capital n
    rcases List.eq_nil_or_concat ds with rfl | ⟨ds, d, rfl⟩
    · exact absurd rfl hne
    · have hd : Inert d := hinert d (by simp)
      rw [hds, List.concat_eq_append, ← List.cons_append, ← List.cons_append, ← List.append_assoc]
      exact isContinued_concat (hd.ne (by decide)) _
  cases h with
  | @letter x stands ascii lettered =>
    by_cases hx : x = '\\'
    · rw [hx, isContinued_backslashes, hb]
    · rw [List.append_cons]
      exact isContinued_concat hx _
  | plain inert => exact isContinued_concat (inert.ne (by decide)) _
  | unit short => exact unit before _
  | pair long =>
    rw [← List.append_assoc]
    exact unit _ _

/-- An escaped text ends no line with an odd backslash; the induction is on the text. -/
theorem isContinued_escape (capital : Bool) (s : String) {before : List Char}
    (hb : isContinued before = false) : isContinued (before ++ escape capital s) = false := by
  unfold escape
  induction s.toList generalizing before with
  | nil => rwa [List.flatMap_nil, List.append_nil]
  | cons c cs ih =>
    rw [List.flatMap_cons, ← List.append_assoc]
    exact ih ((escaped_escapeChar capital c).isContinued hb)

/-! ## Separators -/

/-- The entry behind a character that belongs to the key. -/
def inKey (s : List Char) (parts : List Char × List Char) : List Char × List Char :=
  (s ++ parts.1, parts.2)

theorem splitEntry_inert {c : Char} (h : Inert c) (rest : List Char) :
    splitEntry (c :: rest) = inKey [c] (splitEntry rest) := by
  have hsep : ¬ (c = '=' ∨ c = ':') := by
    rintro (hc | hc)
    · exact h.ne (by decide) hc
    · exact h.ne (by decide) hc
  rw [splitEntry, if_neg hsep, if_neg (by rw [h.isBlank]; exact Bool.false_ne_true)]
  · rfl
  · exact fun _ _ hc _ => h.ne (by decide) hc

theorem splitEntry_inerts {s : List Char} (h : ∀ c ∈ s, Inert c) (rest : List Char) :
    splitEntry (s ++ rest) = inKey s (splitEntry rest) := by
  induction s with
  | nil => rfl
  | cons c s ih =>
    rw [List.cons_append, splitEntry_inert (h c (List.mem_cons_self ..)),
      ih fun d hd => h d (List.mem_cons_of_mem _ hd)]
    rfl

/-- An escaped character belongs to the key. -/
theorem Escaped.splitEntry {capital : Bool} {c : Char} {s : List Char} (h : Escaped capital c s)
    (rest : List Char) : splitEntry (s ++ rest) = inKey s (splitEntry rest) := by
  have unit (n : Nat) (rest : List Char) : Properties.splitEntry (unitEscape capital n ++ rest) =
      inKey (unitEscape capital n) (Properties.splitEntry rest) := by
    obtain ⟨ds, hds, hinert, -⟩ := unitEscape_eq capital n
    rw [hds, List.cons_append, List.cons_append, Properties.splitEntry, splitEntry_inerts hinert]
    rfl
  cases h with
  | letter => rfl
  | plain inert => exact splitEntry_inert inert rest
  | unit short => exact unit _ rest
  | pair long =>
    rw [List.append_assoc, unit, unit]
    simp [inKey]

/-- The key of a written entry ends at the equals sign behind it. -/
theorem splitEntry_escape (capital : Bool) (key : String) (rest : List Char) :
    splitEntry (escape capital key ++ '=' :: rest) = (escape capital key, trimStart rest) := by
  have inside (cs : List Char) : splitEntry (cs.flatMap (escapeChar capital) ++ '=' :: rest) =
      inKey (cs.flatMap (escapeChar capital)) ([], trimStart rest) := by
    induction cs with
    | nil => rfl
    | cons c cs ih =>
      rw [List.flatMap_cons, List.append_assoc, (escaped_escapeChar capital c).splitEntry, ih]
      simp [inKey]
  rw [escape, inside, inKey, List.append_nil]

/-! ## Escapes -/

/-- Four digits give the number of their unit. -/
theorem unitValue?_unitEscape (capital : Bool) {unit : Nat} (h : unit < 0x10000) :
    unitValue? ((unitEscape capital unit).drop 2) = some unit := by
  have value (n : Nat) := (hexDigit_spec capital (n % 16) (Nat.mod_lt _ (by decide))).1
  have unsigned (n : Nat) := (hexDigit_spec capital (n % 16) (Nat.mod_lt _ (by decide))).2.2
  show unitValue? [hexDigit capital (unit / 0x1000 % 16), hexDigit capital (unit / 0x100 % 16),
    hexDigit capital (unit / 0x10 % 16), hexDigit capital (unit % 16)] = some unit
  unfold unitValue?
  split
  next digits d rest hdigits =>
    exact absurd (List.cons.inj hdigits).1 (unsigned _)
  next =>
    simp only [List.isEmpty_cons, Bool.false_eq_true, if_false, List.foldlM_cons, List.foldlM_nil,
      value, Option.map_some, Option.bind_eq_bind, Option.bind_some]
    exact congrArg some (by omega)

/-- The escape of a low surrogate is found behind that of a high one. -/
theorem lowSurrogate?_unitEscape (capital : Bool) {n : Nat} (h : n < 0x400) (rest : List Char) :
    lowSurrogate? (unitEscape capital (0xDC00 + n) ++ rest) = some (0xDC00 + n, rest) := by
  have hlow : isLowSurrogate (0xDC00 + n) = true := by
    simp only [isLowSurrogate, Bool.and_eq_true, decide_eq_true_eq]
    omega
  show ((unitValue? ((unitEscape capital (0xDC00 + n)).drop 2)).bind fun unit =>
    if isLowSurrogate unit then some (unit, rest) else none) = _
  rw [unitValue?_unitEscape capital (by omega), Option.bind_some, if_pos hlow]

/-- What an escape of a unit is resolved to. -/
theorem unescapeFrom_unitEscape (capital : Bool) {unit : Nat} (h : unit < 0x10000) (fuel : Nat)
    {rest behind : List Char} {c : Char} (hc : unitChar? unit rest = some (c, behind)) :
    unescapeFrom (fuel + 1) (unitEscape capital unit ++ rest) = c :: unescapeFrom fuel behind := by
  let digits := (unitEscape capital unit).drop 2
  have hescape : unitEscape capital unit ++ rest = '\\' :: 'u' :: (digits ++ rest) := rfl
  have htake : (digits ++ rest).take 4 = digits := rfl
  have hdrop : (digits ++ rest).drop 4 = rest := rfl
  have hread : (unitValue? digits).bind (unitChar? · rest) = some (c, behind) := by
    rw [unitValue?_unitEscape capital h, Option.bind_some, hc]
  rw [hescape, unescapeFrom]
  simp only [htake, hdrop, hread]

/-- An escaped character is resolved to the character, whatever follows. -/
theorem Escaped.unescapeFrom {capital : Bool} {c : Char} {s : List Char} (h : Escaped capital c s)
    (fuel : Nat) (rest : List Char) :
    unescapeFrom (fuel + 1) (s ++ rest) = c :: unescapeFrom fuel rest := by
  have hvalid : c.toNat < 0xD800 ∨ 0xDFFF < c.toNat ∧ c.toNat < 0x110000 := c.valid
  cases h with
  | @letter x stands ascii lettered =>
    rw [List.cons_append, List.cons_append, List.nil_append, Properties.unescapeFrom, stands]
    exact lettered
  | plain inert =>
    have hc : c ≠ '\\' := inert.ne (by decide)
    rw [List.singleton_append, Properties.unescapeFrom]
    · exact fun _ h _ => hc h
    · exact fun _ _ h _ => hc h
    · exact fun h _ => hc h
  | unit short =>
    refine unescapeFrom_unitEscape capital short fuel ?_
    have hhigh : isHighSurrogate c.toNat = false := by
      simp only [isHighSurrogate, Bool.and_eq_false_iff, decide_eq_false_iff_not]
      omega
    have hlow : isLowSurrogate c.toNat = false := by
      simp only [isLowSurrogate, Bool.and_eq_false_iff, decide_eq_false_iff_not]
      omega
    rw [unitChar?, hhigh, hlow, Char.ofNat_toNat]
    rfl
  | pair long =>
    rw [List.append_assoc]
    refine unescapeFrom_unitEscape capital (by omega) fuel ?_
    have hhigh : isHighSurrogate (0xD800 + (c.toNat - 0x10000) / 0x400) = true := by
      simp only [isHighSurrogate, Bool.and_eq_true, decide_eq_true_eq]
      omega
    have hvalue : 0x10000 + (0xD800 + (c.toNat - 0x10000) / 0x400 - 0xD800) * 0x400 +
        (0xDC00 + (c.toNat - 0x10000) % 0x400 - 0xDC00) = c.toNat := by omega
    rw [unitChar?, if_pos hhigh, lowSurrogate?_unitEscape capital (Nat.mod_lt _ (by decide)),
      Option.map_some]
    dsimp only
    rw [hvalue, Char.ofNat_toNat]

/-- **An escaped text is resolved to the text.** -/
theorem unescape_escape (capital : Bool) (s : String) : unescape (escape capital s) = s := by
  have resolved (cs : List Char) : ∀ fuel, cs.length ≤ fuel →
      unescapeFrom fuel (cs.flatMap (escapeChar capital)) = cs := by
    induction cs with
    | nil =>
      intro fuel _
      cases fuel <;> rfl
    | cons c cs ih =>
      intro fuel hfuel
      obtain ⟨fuel, rfl⟩ : ∃ k, fuel = k + 1 := ⟨fuel - 1, by rw [List.length_cons] at hfuel; omega⟩
      rw [List.flatMap_cons, (escaped_escapeChar capital c).unescapeFrom,
        ih fuel (Nat.le_of_succ_le_succ hfuel)]
  have hlength : s.toList.length ≤ (escape capital s).length := by
    unfold escape
    induction s.toList with
    | nil => exact Nat.le_refl _
    | cons c cs ih =>
      obtain ⟨d, ds, hd, -⟩ := (escaped_escapeChar capital c).head
      rw [List.flatMap_cons, List.length_append, hd, List.length_cons, List.length_cons]
      omega
  unfold unescape
  unfold escape at hlength ⊢
  rw [resolved s.toList _ hlength, String.ofList_toList]

end Stencil.Properties
