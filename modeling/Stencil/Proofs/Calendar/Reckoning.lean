import Stencil.Calendar.Moment
import Mathlib.Tactic.IntervalCases

/-!
# Days of the calendar

The days of the calendar can be counted year by year and month by month: a year has 365 days and a
leap year one more, and a month has as many days as it always has.  The dates of day counts, which
are found by way of eras that start in March, are those of this count.

- `IsLeapYear`, `monthLength`, `Date.Valid`: the years, months and days of the calendar;
- `newYear`, `Date.reckoned`: days counted year by year and month by month;
- `EraDay`: a day of an era, by the centuries, cycles of four years, years and days before it;
- `Date.ofDays_spec`: **the date of a day count is a day of the calendar**, and counting up to it
  gives that day count again;
- `Moment.ofMillis_spec`: a moment shows such a date and a time of the day, and its instant is the
  one that it is the moment of.
-/

namespace Stencil.Calendar

/-! ## Years and months -/

/-- Every fourth year is a leap year, but of the full centuries only every fourth one. -/
def IsLeapYear (year : Int) : Prop := year % 4 = 0 ∧ (year % 100 ≠ 0 ∨ year % 400 = 0)

instance (year : Int) : Decidable (IsLeapYear year) := inferInstanceAs (Decidable (_ ∧ _))

/-- The days of a month of a year. -/
def monthLength (year : Int) (month : Nat) : Nat :=
  if month = 2 then if IsLeapYear year then 29 else 28
  else if month ∈ [4, 6, 9, 11] then 30
  else 31

/-- The months of a year run from 1 to 12, and its days from 1 to the length of their month. -/
structure Date.Valid (d : Date) : Prop where
  month_pos : 1 ≤ d.month
  month_le : d.month ≤ 12
  day_pos : 1 ≤ d.day
  day_le : d.day ≤ monthLength d.year d.month

instance (d : Date) : Decidable d.Valid :=
  decidable_of_iff ((1 ≤ d.month ∧ d.month ≤ 12) ∧ 1 ≤ d.day ∧ d.day ≤ monthLength d.year d.month)
    ⟨fun h => ⟨h.1.1, h.1.2, h.2.1, h.2.2⟩, fun h => ⟨⟨h.1, h.2⟩, h.3, h.4⟩⟩

/-- The days from 1 January 1970 to the first day of a year: 365 for each year, and one for each
leap year. -/
def newYear (year : Int) : Int :=
  365 * (year - 1970) + ((year - 1) / 4 - (year - 1) / 100 + (year - 1) / 400) - 477

/-- The days of a year before a month. -/
def daysBefore (year : Int) (month : Nat) : Nat :=
  ((List.range' 1 (month - 1)).map (monthLength year)).sum

/-- The days from 1 January 1970 to a date, counted year by year and month by month. -/
def Date.reckoned (d : Date) : Int := newYear d.year + daysBefore d.year d.month + d.day - 1

example : newYear 1970 = 0 := by decide

/-- From January on a month starts after months of 31 days. -/
theorem daysBefore_winter (year : Int) {month : Nat} (h : month ≤ 2) :
    daysBefore year month = 31 * (month - 1) := by
  interval_cases month <;> simp [daysBefore, monthLength]

/-- From March on five months have 153 days, in the same order each time. -/
theorem daysBefore_spring (year : Int) {month : Nat} (hmarch : 3 ≤ month) (hlast : month ≤ 12) :
    daysBefore year month = (153 * (month - 3) + 2) / 5 + if IsLeapYear year then 60 else 59 := by
  split
  · next hleap => interval_cases month <;> simp [daysBefore, List.range', monthLength, hleap]
  · next hleap => interval_cases month <;> simp [daysBefore, List.range', monthLength, hleap]

/-- A year lasts until the next one. -/
theorem newYear_succ (year : Int) :
    newYear (year + 1) = newYear year + daysBefore year 12 + monthLength year 12 := by
  have hdecember : monthLength year 12 = 31 := by simp [monthLength]
  rw [daysBefore_spring year (by decide) (by decide), hdecember, newYear, newYear]
  split
  · next hleap =>
    unfold IsLeapYear at hleap
    omega
  · next hleap =>
    unfold IsLeapYear at hleap
    omega

/-- Years that start in March, in eras of 400 of them. -/
theorem era_eq (year : Int) :
    let yearOfEra := (year % 400).toNat
    year / 400 * daysPerEra + (yearOfEra * 365 + yearOfEra / 4 - yearOfEra / 100 : Nat) - epochShift =
      newYear (year + 1) - 306 := by
  simp only [newYear, daysPerEra, epochShift]
  omega

/-- The era arithmetic of `Date.toDays` comes to the same count. -/
theorem Date.toDays_eq {d : Date} (h : d.Valid) : d.toDays = d.reckoned := by
  obtain ⟨year, month, day⟩ := d
  obtain ⟨hfirst, hlast, hday, -⟩ := h
  dsimp only at hfirst hlast hday
  simp only [toDays, reckoned, Int.fdiv_eq_ediv_of_nonneg _ (show (0 : Int) ≤ 400 by decide),
    Int.fmod_eq_emod_of_nonneg _ (show (0 : Int) ≤ 400 by decide)]
  by_cases hwinter : month ≤ 2
  · have hera := era_eq (year - 1)
    rw [Int.sub_add_cancel] at hera
    rw [if_pos hwinter, if_neg (show ¬ 2 < month by omega), daysBefore_winter year hwinter]
    dsimp only at hera
    omega
  · have hera := era_eq year
    have hnext := newYear_succ year
    rw [if_neg hwinter, if_pos (show 2 < month by omega),
      daysBefore_spring year (by omega) hlast]
    rw [daysBefore_spring year (by decide) (by decide),
      show monthLength year 12 = 31 by simp [monthLength]] at hnext
    dsimp only at hera
    omega

/-! ## Days of an era -/

/-- A day of an era by what has passed before it: centuries, cycles of four years, single years, and
days since 1 March. -/
structure EraDay where
  centuries : Nat
  cycles : Nat
  years : Nat
  days : Nat
  centuries_le : centuries ≤ 3
  cycles_le : cycles ≤ 24
  years_le : years ≤ 3
  days_le : days ≤ 365
  /-- Only the last year of a cycle has 366 days, and of the last cycle of a century only in the last
  century. -/
  leap : days = 365 → years = 3 ∧ (cycles = 24 → centuries = 3)

namespace EraDay

/-- The days of the era before a day. -/
def number (e : EraDay) : Nat := 36524 * e.centuries + 1461 * e.cycles + 365 * e.years + e.days

/-- The years of the era before a day. -/
def year (e : EraDay) : Nat := 100 * e.centuries + 4 * e.cycles + e.years

theorem exists_number {n : Nat} (h : n < 146097) : ∃ e : EraDay, e.number = n := by
  let centuries := min (n / 36524) 3
  let cycles := (n - 36524 * centuries) / 1461
  let years := min ((n - 36524 * centuries) % 1461 / 365) 3
  let before := 36524 * centuries + 1461 * cycles + 365 * years
  have hbefore : before ≤ n := by omega
  exact ⟨⟨centuries, cycles, years, n - before, by omega, by omega, by omega, by omega, by omega⟩,
    Nat.add_sub_cancel' hbefore⟩

variable (e : EraDay)

theorem year_le : e.year ≤ 399 := by
  have hcenturies := e.centuries_le
  have hcycles := e.cycles_le
  have hyears := e.years_le
  unfold year
  omega

/-- The quotient by which a year is found from a day. -/
theorem year_eq :
    (e.number - e.number / 1460 + e.number / 36524 - e.number / 146096) / 365 = e.year := by
  obtain ⟨c, q, y, d, hc, hq, hy, hd, hleap⟩ := e
  simp only [number, year]
  -- only the last day of an era is counted to a next century and a next era
  have hcenturies : (36524 * c + 1461 * q + 365 * y + d) / 36524 =
      if c = 3 ∧ q = 24 ∧ y = 3 ∧ d = 365 then 4 else c := by
    split <;> omega
  have heras : (36524 * c + 1461 * q + 365 * y + d) / 146096 =
      if c = 3 ∧ q = 24 ∧ y = 3 ∧ d = 365 then 1 else 0 := by
    split <;> omega
  have hcycles : (36524 * c + 1461 * q + 365 * y + d) / 1460 =
      25 * c + q + if 1460 ≤ 24 * c + q + 365 * y + d then 1 else 0 := by
    split <;> omega
  rw [hcenturies, heras, hcycles]
  split <;> split <;> omega

/-- The days of the era before the year of a day. -/
theorem number_eq : 365 * e.year + e.year / 4 - e.year / 100 + e.days = e.number := by
  obtain ⟨c, q, y, d, hc, hq, hy, hd, hleap⟩ := e
  simp only [number, year]
  omega

/-- The month of a day, counted from March. -/
def month : Nat := (5 * e.days + 2) / 153

/-- The date of a day, the `era`-th era being the one it belongs to. -/
def date (era : Int) : Date where
  year := era * 400 + e.year + if e.month < 10 then 0 else 1
  month := if e.month < 10 then e.month + 3 else e.month - 9
  day := e.days - (153 * e.month + 2) / 5 + 1

theorem month_le : e.month ≤ 11 := by
  have hdays := e.days_le
  unfold month
  omega

/-- The last day of an era year, if there are 366 of them, is in a leap year, which started in
January. -/
theorem isLeapYear (era : Int) (h : e.days = 365) : IsLeapYear (era * 400 + e.year + 1) := by
  have hcenturies := e.centuries_le
  have hcycles := e.cycles_le
  obtain ⟨hyears, hcentury⟩ := e.leap h
  unfold IsLeapYear year
  omega

theorem valid_date (era : Int) : (e.date era).Valid := by
  have hleap := e.isLeapYear era
  have hdays := e.days_le
  have hle := e.month_le
  have hmonth : (5 * e.days + 2) / 153 = e.month := rfl
  unfold date
  generalize e.month = m at hle hmonth ⊢
  refine ⟨?_, ?_, Nat.le_add_left .., ?_⟩
  · dsimp only
    split <;> omega
  · dsimp only
    split <;> omega
  · dsimp only
    by_cases hfebruary : m = 11
    · subst hfebruary
      show e.days - 337 + 1 ≤ monthLength (era * 400 + e.year + 1) 2
      rw [monthLength, if_pos rfl]
      split
      · omega
      · next hcommon =>
        have hlast := mt hleap hcommon
        omega
    · interval_cases m <;> simp [monthLength] at hfebruary ⊢ <;> omega

theorem toDays_date (era : Int) :
    (e.date era).toDays = era * daysPerEra + e.number - epochShift := by
  have hle := e.month_le
  have hnumber := e.number_eq
  have hmonth : (5 * e.days + 2) / 153 = e.month := rfl
  have hyear := e.year_le
  have hera : (era * 400 + e.year) / 400 = era := by omega
  have hrest : ((era * 400 + e.year) % 400).toNat = e.year := by omega
  unfold date
  generalize e.month = m at hle hmonth ⊢
  simp only [Date.toDays, Int.fdiv_eq_ediv_of_nonneg _ (show (0 : Int) ≤ 400 by decide),
    Int.fmod_eq_emod_of_nonneg _ (show (0 : Int) ≤ 400 by decide)]
  by_cases hspring : m < 10
  · simp only [if_pos hspring]
    rw [if_neg (by omega), if_pos (by omega), Int.add_zero, hera, hrest]
    omega
  · simp only [if_neg hspring]
    rw [if_pos (by omega), if_neg (by omega), Int.add_sub_cancel, hera, hrest]
    omega

end EraDay

namespace Date

/-- Every day count belongs to a day of an era, whose date it has. -/
theorem exists_ofDays (days : Int) : ∃ (era : Int) (e : EraDay),
    days = era * daysPerEra + e.number - epochShift ∧ ofDays days = e.date era := by
  have hperEra : (0 : Int) ≤ daysPerEra := by decide
  have hrange : ((days + epochShift) % daysPerEra).toNat < 146097 := by
    unfold daysPerEra
    omega
  obtain ⟨e, he⟩ := EraDay.exists_number hrange
  refine ⟨(days + epochShift) / daysPerEra, e, ?_, ?_⟩
  · rw [he]
    unfold daysPerEra
    omega
  · have hday : e.number - (365 * e.year + e.year / 4 - e.year / 100) = e.days := by
      have := e.number_eq
      omega
    simp only [ofDays, Int.fdiv_eq_ediv_of_nonneg _ hperEra, Int.fmod_eq_emod_of_nonneg _ hperEra,
      ← he, e.year_eq, hday]
    refine congrArg (Date.mk · _ _) ?_
    -- the first two months of the calendar year are the last ones of the era year
    show (if (if e.month < 10 then e.month + 3 else e.month - 9) ≤ 2 then _ else _) = _
    have hle := e.month_le
    by_cases hspring : e.month < 10
    · rw [if_pos hspring, if_pos hspring, if_neg (by omega), Int.add_zero]
    · rw [if_neg hspring, if_neg hspring, if_pos (by omega)]

/-- **The date of a day count** is a day of the calendar, and the days up to it are that count. -/
theorem ofDays_spec (days : Int) : (ofDays days).Valid ∧ (ofDays days).reckoned = days := by
  obtain ⟨era, e, hdays, hdate⟩ := exists_ofDays days
  have hvalid := e.valid_date era
  rw [hdate, ← toDays_eq hvalid, e.toDays_date]
  exact ⟨hvalid, hdays.symm⟩

end Date

/-! ## Moments -/

/-- What clocks and calendars can show. -/
structure Moment.Valid (m : Moment) : Prop where
  date : m.date.Valid
  hour_lt : m.hour < 24
  minute_lt : m.minute < 60
  second_lt : m.second < 60
  millisecond_lt : m.millisecond < 1000

/-- The milliseconds of the day that have passed at a moment. -/
def Moment.timeOfDay (m : Moment) : Nat :=
  ((m.hour * 60 + m.minute) * 60 + m.second) * 1000 + m.millisecond

/-- **The moment of an instant** can be shown, and going back from the date and the time by the
distance from UTC leads to that instant. -/
theorem Moment.ofMillis_spec (millis offset : Int) :
    let m := ofMillis millis offset
    m.Valid ∧ m.date.reckoned * millisPerDay + m.timeOfDay - offset * 1000 = millis := by
  have hday : (0 : Int) ≤ millisPerDay := by decide
  obtain ⟨hdate, hreckoned⟩ := Date.ofDays_spec ((millis + offset * 1000) / millisPerDay)
  simp only [ofMillis, timeOfDay, Int.fdiv_eq_ediv_of_nonneg _ hday,
    Int.fmod_eq_emod_of_nonneg _ hday, hreckoned]
  unfold millisPerDay
  constructor
  · constructor
    case date => exact hdate
    all_goals
      dsimp only
      omega
  · omega

end Stencil.Calendar
