import Stencil.Calendar.Pattern
import Stencil.Proofs.Calendar.Reckoning
import Stencil.Proofs.Number.Digits
import Stencil.Proofs.Text.Cut

/-!
# Reading ISO 8601

A date and a time of the day, with the letter T between them, and behind them the distance from UTC.
Years from 0 to 9999 have four digits, other years a sign and at least four.  A fraction of a second
has three digits and may be missing.  The distance is Z, or a sign, hours and minutes.  What the
calendar and the clock do not have is refused.

- `Iso.instant?`: the instant that a text denotes;
- `Iso.year?_yearText`, `Iso.zone?_offsetText`: what is written for a year and for a distance of whole
  minutes is read as that;
- `Iso.instant?_text`: **a moment is read as the instant that it is the moment of**.
-/

namespace Stencil.Calendar.Iso

open Number

/-! ## The reader -/

/-- The number of exactly `count` digits, and what follows them. -/
def number? (count : Nat) (s : List Char) : Option (Nat × List Char) :=
  let digits := s.take count
  if digits.length = count ∧ digits.all Char.isDigit then
    some (Nat.ofDigitChars 10 digits 0, s.drop count)
  else none

/-- What follows a character, which has to be there. -/
def after? (c : Char) : List Char → Option (List Char)
  | [] => none
  | d :: rest => if d = c then some rest else none

/-- The number of at least four digits, as many as there are, and what follows them. -/
def longYear? (s : List Char) : Option (Nat × List Char) :=
  let digits := s.takeWhile Char.isDigit
  if 4 ≤ digits.length then some (Nat.ofDigitChars 10 digits 0, s.dropWhile Char.isDigit) else none

/-- A year, and what follows it. -/
def year? : List Char → Option (Int × List Char)
  | '+' :: s => (longYear? s).map fun (year, rest) => (year, rest)
  | '-' :: s => (longYear? s).map fun (year, rest) => (-year, rest)
  | s => (number? 4 s).map fun (year, rest) => (year, rest)

/-- A date of the calendar, and what follows it. -/
def date? (s : List Char) : Option (Date × List Char) := do
  let (year, s) ← year? s
  let s ← after? '-' s
  let (month, s) ← number? 2 s
  let s ← after? '-' s
  let (day, s) ← number? 2 s
  let date : Date := ⟨year, month, day⟩
  if date.Valid then some (date, s) else none

/-- The minutes of hours and minutes, and what follows them. -/
def minutes? (s : List Char) : Option (Nat × List Char) := do
  let (hour, s) ← number? 2 s
  let s ← after? ':' s
  let (minute, s) ← number? 2 s
  if hour < 24 ∧ minute < 60 then some (hour * 60 + minute, s) else none

/-- The milliseconds of a fraction of a second, and what follows it. -/
def fraction? : List Char → Option (Nat × List Char)
  | '.' :: s => number? 3 s
  | s => some (0, s)

/-- The milliseconds of a time of the day, and what follows it. -/
def time? (s : List Char) : Option (Nat × List Char) := do
  let (minutes, s) ← minutes? s
  let s ← after? ':' s
  let (second, s) ← number? 2 s
  let (millisecond, s) ← fraction? s
  if second < 60 then some ((minutes * 60 + second) * 1000 + millisecond, s) else none

/-- The minutes of a distance from UTC, and what follows it. -/
def zone? : List Char → Option (Int × List Char)
  | 'Z' :: s => some (0, s)
  | '+' :: s => (minutes? s).map fun (minutes, rest) => (minutes, rest)
  | '-' :: s => (minutes? s).map fun (minutes, rest) => (-minutes, rest)
  | _ => none

/-- The instant that a text denotes: the milliseconds from 1 January 1970 to its date and time, less
the distance from UTC. -/
def instant? (s : List Char) : Option Int := do
  let (date, s) ← date? s
  let s ← after? 'T' s
  let (time, s) ← time? s
  let (zone, s) ← zone? s
  if s = [] then some (date.reckoned * millisPerDay + time - zone * 60000) else none

example : instant? "2020-01-05T17:04:05.250+02:00".toList = some 1578236645250 := by decide +kernel

/-! ## Numbers -/

variable {rest : List Char}

theorem number?_padded {count n : Nat} (hcount : 0 < count) (h : n < 10 ^ count)
    (rest : List Char) : number? count (padded count n ++ rest) = some (n, rest) := by
  have hlength := length_padded hcount h
  simp only [number?, List.take_left' hlength, List.drop_left' hlength, ofDigitChars_padded]
  exact if_pos ⟨hlength, List.all_eq_true.mpr fun c hc => isDigit_of_mem_padded hc⟩

@[simp] theorem after?_self (c : Char) (rest : List Char) : after? c (c :: rest) = some rest :=
  if_pos rfl

theorem longYear?_padded (n : Nat) (rest : List Char) :
    longYear? (padded 4 n ++ '-' :: rest) = some (n, '-' :: rest) := by
  have hdigits : ∀ c ∈ padded 4 n, c.isDigit = true := fun c hc => isDigit_of_mem_padded hc
  have hrest : ∀ c ∈ ('-' :: rest).head?, c.isDigit = false := by simp
  obtain ⟨htake, hdrop⟩ := Text.takeWhile_append_of_head hdigits hrest
  simp only [longYear?, htake, hdrop, ofDigitChars_padded]
  exact if_pos (le_length_padded 4 n)

/-- A year without a sign has four digits. -/
theorem year?_of_isDigit {c : Char} (h : c.isDigit = true) (s : List Char) :
    year? (c :: s) = (number? 4 (c :: s)).map fun (year, rest) => (year, rest) := by
  unfold year?
  split
  · next heq =>
    obtain ⟨rfl, -⟩ := List.cons.inj heq
    cases h
  · next heq =>
    obtain ⟨rfl, -⟩ := List.cons.inj heq
    cases h
  · rfl

/-! ## Parts of a text -/

theorem year?_yearText (year : Int) (rest : List Char) :
    year? (yearText year ++ '-' :: rest) = some (year, '-' :: rest) := by
  unfold yearText
  split
  · next hshort =>
    obtain ⟨c, digits, hdigits⟩ : ∃ c digits, padded 4 year.toNat = c :: digits :=
      List.exists_cons_of_length_pos (Nat.le_trans (by decide) (le_length_padded 4 _))
    have hc : c.isDigit = true := isDigit_of_mem_padded (hdigits ▸ List.mem_cons_self)
    rw [hdigits, List.cons_append, year?_of_isDigit hc, ← List.cons_append, ← hdigits,
      number?_padded (by decide) (by omega)]
    simp [hshort.1]
  · next hlong =>
    split
    · next hnegative =>
      have habs : -(year.natAbs : Int) = year := by omega
      rw [List.cons_append, year?, longYear?_padded]
      exact congrArg (fun y => some (y, '-' :: rest)) habs
    · next hpositive =>
      have habs : (year.natAbs : Int) = year := by omega
      rw [List.cons_append, year?, longYear?_padded]
      exact congrArg (fun y => some (y, '-' :: rest)) habs

theorem date?_text {d : Date} (h : d.Valid) (rest : List Char) :
    date? (yearText d.year ++ '-' :: (padded 2 d.month ++ '-' :: (padded 2 d.day ++ rest))) =
      some (d, rest) := by
  have hmonth : d.month < 10 ^ 2 := Nat.lt_of_le_of_lt h.month_le (by decide)
  have hday : d.day < 10 ^ 2 := by
    refine Nat.lt_of_le_of_lt (Nat.le_trans h.day_le ?_) (show 31 < 10 ^ 2 by decide)
    unfold monthLength
    split
    · split <;> decide
    · split <;> decide
  have htwo : 0 < 2 := by decide
  simp only [date?, year?_yearText, after?_self, number?_padded htwo hmonth,
    number?_padded htwo hday, Option.bind_eq_bind, Option.bind_some]
  exact if_pos h

theorem minutes?_text {hour minute : Nat} (hhour : hour < 24) (hminute : minute < 60)
    (rest : List Char) :
    minutes? (padded 2 hour ++ ':' :: (padded 2 minute ++ rest)) =
      some (hour * 60 + minute, rest) := by
  have htwo : 0 < 2 := by decide
  have hhours : hour < 10 ^ 2 := by omega
  have hminutes : minute < 10 ^ 2 := by omega
  simp only [minutes?, after?_self, number?_padded htwo hhours, number?_padded htwo hminutes,
    Option.bind_eq_bind, Option.bind_some]
  exact if_pos ⟨hhour, hminute⟩

/-- A fraction that is left out is one of no milliseconds, if no other point follows. -/
theorem fraction?_fractionText {millisecond : Nat} (h : millisecond < 1000)
    (hrest : rest.head? ≠ some '.') :
    fraction? (fractionText millisecond ++ rest) = some (millisecond, rest) := by
  unfold fractionText
  split
  · next hzero =>
    rw [List.nil_append, hzero]
    unfold fraction?
    split
    · exact absurd rfl hrest
    · rfl
  · rw [List.cons_append, fraction?, number?_padded (by decide) h]

theorem time?_text {m : Moment} (h : m.Valid) (hrest : rest.head? ≠ some '.') :
    time? (padded 2 m.hour ++ ':' :: (padded 2 m.minute ++ ':' :: (padded 2 m.second ++
      (fractionText m.millisecond ++ rest)))) = some (m.timeOfDay, rest) := by
  have hsecond : m.second < 10 ^ 2 := Nat.lt_trans h.second_lt (by decide)
  simp only [time?, minutes?_text h.hour_lt h.minute_lt, after?_self,
    number?_padded (show 0 < 2 by decide) hsecond, fraction?_fractionText h.millisecond_lt hrest,
    Option.bind_eq_bind, Option.bind_some]
  exact if_pos h.second_lt

/-- A distance of whole minutes, less than a day. -/
theorem zone?_offsetText {minutes : Int} (h : minutes.natAbs < 1440) :
    zone? (offsetText (minutes * 60)) = some (minutes, []) := by
  have hrounded : ((minutes * 60).natAbs + 30) / 60 = minutes.natAbs := by omega
  have hhour : minutes.natAbs / 60 < 24 := by omega
  have hminute : minutes.natAbs % 60 < 60 := Nat.mod_lt _ (by decide)
  have hread := minutes?_text hhour hminute []
  rw [List.append_nil, Nat.div_add_mod'] at hread
  unfold offsetText
  rw [hrounded]
  dsimp only
  split
  · next hwest =>
    have habs : -(minutes.natAbs : Int) = minutes := by omega
    rw [zone?, hread]
    exact congrArg (fun minutes => some (minutes, [])) habs
  · next heast =>
    have habs : (minutes.natAbs : Int) = minutes := by omega
    rw [zone?, hread]
    exact congrArg (fun minutes => some (minutes, [])) habs

/-- **A moment is read as the instant that it is the moment of**, when a distance from UTC that
stands behind its date and time is read. -/
theorem instant?_text {m : Moment} (h : m.Valid) {zone : List Char} {minutes : Int}
    (hzone : zone? zone = some (minutes, [])) :
    instant? (yearText m.date.year ++ '-' :: (padded 2 m.date.month ++ '-' :: (padded 2 m.date.day ++
      'T' :: (padded 2 m.hour ++ ':' :: (padded 2 m.minute ++ ':' :: (padded 2 m.second ++
        (fractionText m.millisecond ++ zone))))))) =
      some (m.date.reckoned * millisPerDay + m.timeOfDay - minutes * 60000) := by
  have hhead : zone.head? ≠ some '.' := by
    intro hpoint
    obtain ⟨rest, rfl⟩ := List.head?_eq_some_iff.mp hpoint
    cases hzone
  simp only [instant?, date?_text h.date, after?_self, time?_text h hhead, hzone,
    Option.bind_eq_bind, Option.bind_some]
  exact if_pos trivial

end Stencil.Calendar.Iso
