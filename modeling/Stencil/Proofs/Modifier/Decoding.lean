import Stencil.Proofs.Input.Utf8
import Stencil.Proofs.Modifier.Escape
import Stencil.Xml.Reference

/-!
# Escaped texts read back

Each format has its own reader for the place where an escaped text stands.  An escaper writes for a
character what its reader takes for that character, whatever follows, so that reading goes on with
the next character where the next one was written.

- `JsonString.literal?`: reads a string literal of JSON, between its quotes;
- `Field.quoted?`: reads a quoted field, in which a backslash takes its meaning from the character
  behind it;
- `Form.value?`: reads a form-urlencoded value;
- `Escape.undone`: **the four readers undo the four escapers**; character references are resolved by
  `Reference.resolve?`.
-/

namespace Stencil

/-! ## Character references -/

namespace Reference

/-- A reference is resolved at its semicolon; the induction is on the part of its name that has not
been read yet. -/
theorem resolveFrom_some {name : List Char} (hend : ';' ∉ name) (hamp : '&' ∉ name)
    (read rest : List Char) :
    resolveFrom (some read) (name ++ ';' :: rest) =
      (char? (read.reverse ++ name)).bind fun c => (resolveFrom none rest).map (c :: ·) := by
  induction name generalizing read with
  | nil =>
    rw [List.nil_append, List.append_nil, resolveFrom, if_pos rfl]
    rfl
  | cons c name ih =>
    rw [List.cons_append, resolveFrom, if_neg (List.ne_of_not_mem_cons hend).symm,
      if_neg (List.ne_of_not_mem_cons hamp).symm, ih (List.not_mem_of_not_mem_cons hend)
        (List.not_mem_of_not_mem_cons hamp), List.reverse_cons, List.append_assoc]
    rfl

/-- A reference stands for its character. -/
theorem resolveFrom_reference {c : Char} (name : List Char) (hend : ';' ∉ name)
    (hamp : '&' ∉ name) (hc : char? name = some c) (rest : List Char) :
    resolveFrom none ('&' :: name ++ ';' :: rest) = (resolveFrom none rest).map (c :: ·) := by
  rw [List.cons_append, resolveFrom, if_pos rfl, resolveFrom_some hend hamp, List.reverse_nil,
    List.nil_append, hc, Option.bind_some]

end Reference

/-! ## String literals -/

namespace JsonString

open Number

/-- The character that a letter or a mark behind a backslash stands for. -/
def short? : Char → Option Char
  | '"' => some '"'
  | '\\' => some '\\'
  | '/' => some '/'
  | 'b' => some '\x08'
  | 'f' => some '\x0c'
  | 'n' => some '\n'
  | 'r' => some '\r'
  | 't' => some '\t'
  | _ => none

/-- The number of four hexadecimal digits, and the text behind them. -/
def unit? : List Char → Option (Nat × List Char)
  | a :: b :: c :: d :: rest => (natural? 16 [a, b, c, d]).map (·, rest)
  | _ => none

/-- The character that is written by its number.  One above 0xFFFF is written as two surrogates; a
surrogate alone is refused. -/
def numbered? (text : List Char) : Option (Char × List Char) := do
  let (n, rest) ← unit? text
  if n < 0xD800 ∨ 0xDFFF < n then some (Char.ofNat n, rest)
  else if 0xDC00 ≤ n then none
  else
    match rest with
    | '\\' :: 'u' :: rest => do
      let (m, rest) ← unit? rest
      if 0xDC00 ≤ m ∧ m ≤ 0xDFFF then
        some (Char.ofNat (0x10000 + (n - 0xD800) * 0x400 + (m - 0xDC00)), rest)
      else none
    | _ => none

/-- The first character of the inside of a literal, and the text behind it.  A quote and control
characters do not stand for themselves. -/
def char? : List Char → Option (Char × List Char)
  | [] => none
  | '\\' :: 'u' :: rest => numbered? rest
  | '\\' :: c :: rest => (short? c).map (·, rest)
  | c :: rest => if c = '"' ∨ c = '\\' ∨ c.toNat < 0x20 then none else some (c, rest)

/-- The characters before the closing quote, and the text behind it; each of them takes at least one
of the `fuel` characters. -/
def inside? : (fuel : Nat) → List Char → Option (List Char × List Char)
  | 0, _ => none
  | _ + 1, '"' :: rest => some ([], rest)
  | fuel + 1, text => do
    let (c, rest) ← char? text
    let (cs, rest) ← inside? fuel rest
    some (c :: cs, rest)

/-- Reads a literal: its characters, and the text behind it. -/
def literal? : List Char → Option (List Char × List Char)
  | '"' :: text => inside? text.length text
  | _ => none

/-- Names and numbers of characters, and a character that takes two numbers. -/
example : literal? "\"\\u00e9\\n\\ud83d\\ude00\\/\": 1".toList =
    some ("é\n😀/".toList, ": 1".toList) := by
  decide +kernel

end JsonString

/-! ## Quoted fields -/

namespace Field

/-- The characters before the first quote that no backslash stands in front of, and the text behind
that quote. -/
def inside? : List Char → Option (List Char × List Char)
  | [] => none
  | '"' :: rest => some ([], rest)
  | ['\\'] => none
  | '\\' :: c :: rest => (inside? rest).map fun (cs, rest) => (c :: cs, rest)
  | c :: rest => (inside? rest).map fun (cs, rest) => (c :: cs, rest)

/-- Reads a quoted field: its characters, and the text behind its closing quote. -/
def quoted? : List Char → Option (List Char × List Char)
  | '"' :: rest => inside? rest
  | _ => none

end Field

/-! ## Form-urlencoded values -/

namespace Form

open Number

/-- The bytes of a value.  A percent sign without two hexadecimal digits behind it stands for
itself. -/
def bytes : List Char → List UInt8
  | [] => []
  | '+' :: rest => 0x20 :: bytes rest
  | '%' :: a :: b :: rest =>
    match hexValue? a, hexValue? b with
    | some m, some n => UInt8.ofNat (m * 16 + n) :: bytes rest
    | _, _ => 0x25 :: bytes (a :: b :: rest)
  | c :: rest => String.utf8EncodeChar c ++ bytes rest

/-- The text of a value, unless its bytes are no text. -/
def value? (text : List Char) : Option (List Char) := Utf8.decodeAll? (bytes text)

/-- Percent signs that write a byte, and others. -/
example : value? "100%+%C3%A9%2b%4".toList = some "100% é+%4".toList := by decide +kernel

end Form

namespace Escape

open Number

/-! ## Markup -/

/-- What is written for a character is resolved to it. -/
theorem resolveFrom_markupChar (c : Char) (rest : List Char) :
    Reference.resolveFrom none (markupChar c ++ rest) =
      (Reference.resolveFrom none rest).map (c :: ·) := by
  unfold markupChar
  split
  · exact Reference.resolveFrom_reference "lt".toList (by decide) (by decide) rfl rest
  · exact Reference.resolveFrom_reference "gt".toList (by decide) (by decide) rfl rest
  · exact Reference.resolveFrom_reference "amp".toList (by decide) (by decide) rfl rest
  · exact Reference.resolveFrom_reference "quot".toList (by decide) (by decide) rfl rest
  · next hamp _ =>
    rw [List.singleton_append, Reference.resolveFrom, if_neg hamp]

/-- **References are resolved to the characters that they were written for.** -/
theorem resolve?_markup (s : String) : Reference.resolve? (markup s).toList = some s.toList := by
  rw [toList_markup, Reference.resolve?]
  induction s.toList with
  | nil => rfl
  | cons c cs ih =>
    rw [List.flatMap_cons, resolveFrom_markupChar, ih]
    rfl

/-! ## String literals -/

/-- Control characters without a letter are written in four digits. -/
theorem four_digits : ∀ n < 0x20, (zeroFilled 4 (hexadecimal n)).length = 4 ∧
    natural? 16 (zeroFilled 4 (hexadecimal n)) = some n := by
  decide +kernel

theorem unit?_hexadecimal {n : Nat} (h : n < 0x20) (rest : List Char) :
    JsonString.unit? (zeroFilled 4 (hexadecimal n) ++ rest) = some (n, rest) := by
  obtain ⟨hlength, hvalue⟩ := four_digits n h
  match hdigits : zeroFilled 4 (hexadecimal n), hlength with
  | [a, b, c, d], _ =>
    rw [hdigits] at hvalue
    show (natural? 16 [a, b, c, d]).map (·, rest) = _
    rw [hvalue]
    rfl

/-- What is written for a character is read as it. -/
theorem char?_jsonChar (c : Char) (rest : List Char) :
    JsonString.char? (jsonChar c ++ rest) = some (c, rest) := by
  unfold jsonChar
  split
  case h_8 hquote hbackslash _ _ _ _ _ =>
    by_cases hcontrol : c.toNat < 0x20
    · rw [if_pos hcontrol]
      show JsonString.numbered? (zeroFilled 4 (hexadecimal c.toNat) ++ rest) = _
      have hbelow : c.toNat < 0xD800 ∨ 0xDFFF < c.toNat := .inl (by omega)
      unfold JsonString.numbered?
      rw [unit?_hexadecimal hcontrol, Option.bind_eq_bind, Option.bind_some]
      dsimp only
      rw [if_pos hbelow, Char.ofNat_toNat]
    · have hself : ¬(c = '"' ∨ c = '\\' ∨ c.toNat < 0x20) := by
        rintro (h | h | h)
        · exact hquote h
        · exact hbackslash h
        · exact hcontrol h
      rw [if_neg hcontrol, List.singleton_append, JsonString.char?, if_neg hself]
      · exact fun _ h _ => hbackslash h
      · exact fun _ _ h _ => hbackslash h
  all_goals rfl

/-- No character is written with a quote in front. -/
theorem head_jsonChar (c : Char) : ∃ d ds, jsonChar c = d :: ds ∧ d ≠ '"' := by
  unfold jsonChar
  split
  case h_8 hquote _ _ _ _ _ _ =>
    split
    · exact ⟨_, _, rfl, by decide⟩
    · exact ⟨c, [], rfl, hquote⟩
  all_goals exact ⟨_, _, rfl, by decide⟩

/-- The inside of a literal ends at the quote behind the text; the induction is on the text, of
which each character takes one unit of the fuel. -/
theorem inside?_json (cs : List Char) (rest : List Char) :
    ∀ fuel, cs.length < fuel →
      JsonString.inside? fuel (cs.flatMap jsonChar ++ '"' :: rest) = some (cs, rest) := by
  induction cs with
  | nil =>
    intro fuel h
    obtain ⟨fuel, rfl⟩ : ∃ k, fuel = k + 1 := ⟨fuel - 1, by omega⟩
    rfl
  | cons c cs ih =>
    intro fuel h
    obtain ⟨fuel, rfl⟩ : ∃ k, fuel = k + 1 := ⟨fuel - 1, by omega⟩
    obtain ⟨d, ds, hd, hquote⟩ := head_jsonChar c
    have hfirst := char?_jsonChar c (cs.flatMap jsonChar ++ '"' :: rest)
    rw [List.flatMap_cons, List.append_assoc]
    rw [hd, List.cons_append] at hfirst ⊢
    rw [JsonString.inside?, hfirst, Option.bind_eq_bind, Option.bind_some]
    · dsimp only
      rw [ih fuel (Nat.lt_of_succ_lt_succ h)]
      rfl
    · intro _ heq
      exact absurd (List.cons.inj heq).1 hquote

/-- **A literal gives the text that was escaped for it.** -/
theorem literal?_json (s : String) (rest : List Char) :
    JsonString.literal? ('"' :: (json s).toList ++ '"' :: rest) = some (s.toList, rest) := by
  rw [show (json s).toList = s.toList.flatMap jsonChar from String.toList_ofList]
  show JsonString.inside? (s.toList.flatMap jsonChar ++ '"' :: rest).length _ = _
  refine inside?_json s.toList rest _ ?_
  -- no character is left out
  have hlength : s.toList.length ≤ (s.toList.flatMap jsonChar).length := by
    induction s.toList with
    | nil => exact Nat.le_refl _
    | cons c cs ih =>
      obtain ⟨d, ds, hd, -⟩ := head_jsonChar c
      rw [List.flatMap_cons, List.length_append, List.length_cons, hd, List.length_cons]
      omega
  rw [List.length_append, List.length_cons]
  omega

/-! ## Quoted fields -/

theorem inside?_csvChar (c : Char) (rest : List Char) :
    Field.inside? (csvChar c ++ rest) =
      (Field.inside? rest).map fun (cs, rest) => (c :: cs, rest) := by
  unfold csvChar
  by_cases h : c = '"' ∨ c = '\\'
  · rw [if_pos h]
    rfl
  · obtain ⟨hquote, hbackslash⟩ := not_or.mp h
    rw [if_neg h, List.singleton_append, Field.inside?]
    · exact hquote
    · exact fun heq _ => hbackslash heq
    · exact fun _ _ heq _ => hbackslash heq

/-- **A field gives the text that was escaped for it**, and ends at the first quote behind that. -/
theorem quoted?_csv (s : String) (rest : List Char) :
    Field.quoted? ('"' :: (csv s).toList ++ '"' :: rest) = some (s.toList, rest) := by
  rw [show (csv s).toList = s.toList.flatMap csvChar from String.toList_ofList]
  show Field.inside? (s.toList.flatMap csvChar ++ '"' :: rest) = _
  induction s.toList with
  | nil => rfl
  | cons c cs ih =>
    rw [List.flatMap_cons, List.append_assoc, inside?_csvChar, ih]
    rfl

/-! ## Form-urlencoded values -/

/-- A byte is written in two digits. -/
theorem two_digits : ∀ n < 256,
    ((zeroFilled 2 (hexadecimal n)).map Char.toUpper).map hexValue? =
        [some (n / 16), some (n % 16)] ∧
      ((zeroFilled 2 (hexadecimal n)).map Char.toUpper).all Char.isAlphanum := by
  decide +kernel

theorem bytes_percentByte (b : UInt8) (rest : List Char) :
    Form.bytes (percentByte b ++ rest) = b :: Form.bytes rest := by
  have hdigits := (two_digits b.toNat b.toNat_lt).1
  unfold percentByte
  obtain ⟨x, ys, hdigit, hx, hys⟩ := List.map_eq_cons_iff.mp hdigits
  obtain ⟨y, zs, rfl, hy, hzs⟩ := List.map_eq_cons_iff.mp hys
  obtain rfl := List.map_eq_nil_iff.mp hzs
  rw [hdigit]
  show Form.bytes ('%' :: x :: y :: rest) = _
  rw [Form.bytes, hx, hy]
  dsimp only
  rw [show b.toNat / 16 * 16 + b.toNat % 16 = b.toNat by omega, UInt8.ofNat_toNat]

theorem bytes_percentBytes (bs : List UInt8) (rest : List Char) :
    Form.bytes (bs.flatMap percentByte ++ rest) = bs ++ Form.bytes rest := by
  induction bs with
  | nil => rfl
  | cons b bs ih =>
    rw [List.flatMap_cons, List.append_assoc, bytes_percentByte, ih, List.cons_append]

theorem ne_of_isFormSafe {c : Char} (h : isFormSafe c = true) : c ≠ '+' ∧ c ≠ '%' := by
  constructor <;>
  · rintro rfl
    revert h
    decide

/-- What is written for a character is read as its bytes. -/
theorem bytes_formChar (c : Char) (rest : List Char) :
    Form.bytes (formChar c ++ rest) = String.utf8EncodeChar c ++ Form.bytes rest := by
  unfold formChar
  by_cases hsafe : isFormSafe c
  · obtain ⟨hplus, hpercent⟩ := ne_of_isFormSafe hsafe
    rw [if_pos hsafe, List.singleton_append, Form.bytes]
    · exact fun h => hplus h
    · exact fun _ _ _ h => absurd h hpercent
  · rw [if_neg hsafe]
    by_cases hspace : c = ' '
    · rw [if_pos hspace, hspace]
      rfl
    · rw [if_neg hspace]
      exact bytes_percentBytes _ rest

/-- **A value gives the text that was encoded for it.** -/
theorem value?_form (s : String) : Form.value? (form s).toList = some s.toList := by
  have hbytes : Form.bytes (form s).toList = Utf8.encode s.toList := by
    rw [show (form s).toList = s.toList.flatMap formChar from String.toList_ofList]
    induction s.toList with
    | nil => rfl
    | cons c cs ih =>
      rw [List.flatMap_cons, bytes_formChar, ih]
      rfl
  rw [Form.value?, hbytes, Utf8.decodeAll?_encode]

/-- A character of a form-urlencoded text. -/
def isFormChar (c : Char) : Bool := c.isAlphanum || "*-._+%".toList.contains c

theorem isFormChar_formChar (c : Char) : (formChar c).all isFormChar := by
  unfold formChar
  by_cases hsafe : isFormSafe c
  · rw [if_pos hsafe]
    simp only [isFormSafe, Bool.or_eq_true, decide_eq_true_eq] at hsafe
    rcases hsafe with (((h | rfl) | rfl) | rfl) | rfl
    · simp [isFormChar, h]
    all_goals decide
  · rw [if_neg hsafe]
    by_cases hspace : c = ' '
    · rw [if_pos hspace]
      decide
    · rw [if_neg hspace, List.all_flatMap, List.all_eq_true]
      intro b _
      have hdigits := List.all_eq_true.mp (two_digits b.toNat b.toNat_lt).2
      simp only [percentByte, List.all_cons, Bool.and_eq_true, List.all_eq_true]
      exact ⟨by decide, fun d hd => by simp [isFormChar, hdigits d hd]⟩

/-- An encoded text holds letters, digits and six marks only. -/
theorem isFormChar_form (s : String) : (form s).toList.all isFormChar := by
  rw [show (form s).toList = s.toList.flatMap formChar from String.toList_ofList,
    List.all_flatMap, List.all_eq_true]
  exact fun c _ => isFormChar_formChar c

/-! ## All four -/

/-- **Every escaper is undone by the reader of its format**, for every text: references are resolved,
a literal and a field end at the quote behind the text, whatever follows, and a value is decoded.  No
tag and no attribute value starts or ends in markup, and an encoded text holds none of the
characters that divide forms. -/
theorem undone (s : String) :
    (Reference.resolve? (markup s).toList = some s.toList ∧ Harmless (markup s).toList) ∧
    (∀ rest, JsonString.literal? ('"' :: (json s).toList ++ '"' :: rest) = some (s.toList, rest)) ∧
    (∀ rest, Field.quoted? ('"' :: (csv s).toList ++ '"' :: rest) = some (s.toList, rest)) ∧
    (Form.value? (form s).toList = some s.toList ∧ (form s).toList.all isFormChar) :=
  ⟨⟨resolve?_markup s, harmless_markup s⟩, literal?_json s, quoted?_csv s, value?_form s,
    isFormChar_form s⟩

end Escape

end Stencil
