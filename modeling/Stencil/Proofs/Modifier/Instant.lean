import Stencil.Modifier.Format

/-!
# Integers as instants

The forms for dates and times take an integer for an instant, in milliseconds since 1 January 1970.
They keep it as a signed integer of 64 bits, and an unsigned one of `2 ^ 63` or more wraps around:
it is taken for the integer that lies one `cycle` before it.  Instants reach far less than 64 bits
to either side, so that this shows only at the far end of the unsigned integers, whose last ones
wrap around to instants shortly before 1970.

- `Numeral.integer?`: the integer that a number is, and `Numeral.toInt_toInt64` the one that it is
  taken for;
- `Format.argument`, `Format.momentText`: the arguments that ask for a date or a time, and what is
  written for a moment under them;
- `Format.format_integer`: **an integer is written as the instant that it is**, or stays as it is
  when there is no such instant, but for the last unsigned integers.
-/

namespace Stencil

open Calendar

namespace Numeral

/-- The integer that a number in one of the integer representations is. -/
def integer? : Numeral → Option Int
  | .signed n => some n.toInt
  | .unsigned n => some n.toNat
  | .binary _ => none

/-- How many integers of 64 bits there are. -/
def cycle : Int := 18446744073709551616

theorem isInteger_of_integer? {n : Numeral} {v : Int} (h : n.integer? = some v) :
    n.isInteger = true := by
  cases n with
  | binary x => cases h
  | _ => rfl

/-- An integer is taken for itself where it is a signed integer of 64 bits, and else for the one
that lies a cycle before it. -/
theorem toInt_toInt64 {n : Numeral} {v : Int} (h : n.integer? = some v) :
    n.toInt64.toInt = if v < 9223372036854775808 then v else v - cycle := by
  cases n with
  | binary x => cases h
  | signed n =>
    obtain rfl : n.toInt = v := Option.some.inj h
    exact (if_pos n.toInt_lt).symm
  | unsigned n =>
    obtain rfl : (n.toNat : Int) = v := Option.some.inj h
    have hbits : n.toInt64.toInt = (n.toNat : Int).bmod 18446744073709551616 :=
      BitVec.toInt_eq_toNat_bmod n.toBitVec
    have hbound : n.toNat < 18446744073709551616 := n.toNat_lt
    show n.toInt64.toInt = _
    rw [hbits, Int.bmod_def, cycle]
    omega

end Numeral

/-- The word that names a style in an argument. -/
def Style.word : Style → String
  | .short => "short"
  | .medium => "medium"
  | .long => "long"
  | .full => "full"

namespace Format

/-- The word that names a part of a moment in an argument. -/
def Part.word : Part → String
  | .date => "Date"
  | .time => "Time"
  | .dateTime => "DateTime"

/-- The argument that asks for a part of a moment: in a style of the locale, or in ISO 8601 form. -/
def argument (part : Part) : Option Style → String
  | some style => style.word ++ part.word
  | none => "iso" ++ part.word

/-- What is written for a moment: under the pattern of the locale for the style, or in ISO 8601
form. -/
def momentText (settings : Settings) (part : Part) : Option Style → Moment → String
  | some style, m =>
    let c := settings.locale.conventions
    String.ofList (Pattern.render c.names (localizedPattern c style part).toList m)
  | none, m => String.ofList (isoText m part)

/-- What is written for an instant, if it can be shown. -/
def instantText? (settings : Settings) (part : Part) (style : Option Style) (millis : Int) :
    Option String :=
  (Moment.at? millis settings.offset).map (momentText settings part style)

theorem ofArgument_argument (part : Part) (style : Option Style) :
    Form.ofArgument (argument part style) = style.elim (.iso part) (.localized part) := by
  rcases style with _ | style
  · cases part <;> decide +kernel
  · cases style <;> cases part <;> decide +kernel

/-- The modifier asks for the instant of its scalar, and writes it if it can be shown. -/
theorem format_instant {value : Scalar} {t : Timestamp} (h : instant? value = some t) (part : Part)
    (style : Option Style) (settings : Settings) :
    format value (some (argument part style)) settings =
      (instantText? settings part style t.millis.toInt).elim value .text := by
  unfold format instantText?
  dsimp only
  rw [ofArgument_argument]
  cases style <;>
  · simp only [Option.elim, Form.render?, h, Option.bind_eq_bind, Option.bind_some,
      Timestamp.moment?]
    cases Moment.at? t.millis.toInt settings.offset <;> rfl

/-- **An integer is written as the instant that it is**, in every form for dates and times, and
stays as it is when it lies outside the range of instants.  Only the last unsigned integers do not:
they are written as the instants that lie a cycle before them. -/
theorem format_integer {n : Numeral} {v : Int} (h : n.integer? = some v) (part : Part)
    (style : Option Style) (settings : Settings) :
    format (.number n) (some (argument part style)) settings =
      if inRange v then
        .text (momentText settings part style (.ofMillis v settings.offset))
      else if Numeral.cycle + firstInstant ≤ v then
        .text (momentText settings part style (.ofMillis (v - Numeral.cycle) settings.offset))
      else .number n := by
  have hinstant : instant? (.number n) = some ⟨n.toInt64⟩ :=
    if_pos (Numeral.isInteger_of_integer? h)
  have hrange (millis : Int) : inRange millis = true ↔
      -8334601228800000 ≤ millis ∧ millis ≤ 8210266876799999 := by
    rw [inRange, Bool.and_eq_true, decide_eq_true_iff, decide_eq_true_iff]
    rfl
  have hbound : v < 18446744073709551616 := by
    cases n with
    | signed n =>
      obtain rfl : n.toInt = v := Option.some.inj h
      exact Int.lt_trans n.toInt_lt (by decide)
    | unsigned n =>
      obtain rfl : (n.toNat : Int) = v := Option.some.inj h
      exact Int.ofNat_lt.mpr n.toNat_lt
    | binary x => cases h
  rw [format_instant hinstant, instantText?, Moment.at?, Numeral.toInt_toInt64 h]
  -- what the integer is taken for, against the range of instants
  by_cases hsigned : v < 9223372036854775808
  · have hearly : ¬ Numeral.cycle + firstInstant ≤ v := by
      rw [Numeral.cycle, firstInstant]
      omega
    rw [if_pos hsigned, if_neg hearly]
    cases inRange v <;> rfl
  · have houtside : ¬ inRange v = true := by
      rw [hrange]
      omega
    have hwrapped : inRange (v - Numeral.cycle) = true ↔ Numeral.cycle + firstInstant ≤ v := by
      rw [hrange, Numeral.cycle, firstInstant]
      omega
    rw [if_neg hsigned, if_neg houtside]
    by_cases hlast : Numeral.cycle + firstInstant ≤ v
    · rw [if_pos (hwrapped.mpr hlast), if_pos hlast]
      rfl
    · rw [if_neg (mt hwrapped.mp hlast), if_neg hlast]
      rfl

/-- The last instant that can be shown, as an unsigned integer, and the first unsigned integer that
wraps around. -/
theorem format_integer_bounds :
    let late : Numeral := .unsigned 8210266876799999
    let wrapping : Numeral := .unsigned 9223372036854775808
    let settings : Settings := ⟨.default, 0⟩
    (late.integer? = some 8210266876799999 ∧
      format (.number late) (some "isoDate") settings = .text "+262142-12-31Z") ∧
    (wrapping.integer? = some 9223372036854775808 ∧
      format (.number wrapping) (some "shortTime") settings = .number wrapping) := by
  intro late wrapping settings
  have hlate : late.integer? = some 8210266876799999 := by decide +kernel
  have hwrapping : wrapping.integer? = some 9223372036854775808 := by decide +kernel
  have hdate := format_integer hlate .date none settings
  have htime := format_integer hwrapping .time (some .short) settings
  refine ⟨⟨hlate, ?_⟩, hwrapping, ?_⟩
  · rw [show "isoDate" = argument .date none by decide +kernel, hdate]
    decide +kernel
  · rw [show "shortTime" = argument .time (some .short) by decide +kernel, htime]
    decide +kernel

/-- **The last unsigned integer is no instant**, and yet it is written as one: the millisecond
before 1970. -/
theorem format_lastUnsigned :
    let n : Numeral := .unsigned 18446744073709551615
    let written := format (.number n) (some "isoDateTime") ⟨.default, 0⟩
    n.integer? = some 18446744073709551615 ∧ inRange 18446744073709551615 = false ∧
      written = .text "1969-12-31T23:59:59.999Z" ∧ written ≠ .number n := by
  decide +kernel

end Format

end Stencil
