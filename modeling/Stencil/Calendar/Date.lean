/-!
# Civil dates

Dates of the proleptic Gregorian calendar, counted in days from 1 January 1970.  The count runs over
eras of 400 years, which all have the same 146097 days, and over years that start in March, so that
the leap day is the last day of its year.  Dates are those of `chrono`, whose documented behaviour
the modules of `Stencil.Calendar` follow.

* `Date.ofDays`, `Date.toDays`: between a day count and year, month and day;
* `weekdayOf`: the day of the week of a day count, Sunday being 0.
-/

namespace Stencil.Calendar

/-- A day of the Gregorian calendar: months from 1 to 12, days from 1. -/
structure Date where
  year : Int
  month : Nat
  day : Nat
  deriving DecidableEq

/-- The days of one era of 400 years. -/
def daysPerEra : Int := 146097

/-- Days from 1 March of the year 0 to 1 January 1970. -/
def epochShift : Int := 719468

/-- The date `days` days after 1 January 1970. -/
def Date.ofDays (days : Int) : Date :=
  let shifted := days + epochShift
  let era := shifted.fdiv daysPerEra
  let dayOfEra := (shifted.fmod daysPerEra).toNat
  let yearOfEra := (dayOfEra - dayOfEra / 1460 + dayOfEra / 36524 - dayOfEra / 146096) / 365
  let dayOfYear := dayOfEra - (365 * yearOfEra + yearOfEra / 4 - yearOfEra / 100)
  let shiftedMonth := (5 * dayOfYear + 2) / 153
  let day := dayOfYear - (153 * shiftedMonth + 2) / 5 + 1
  let month := if shiftedMonth < 10 then shiftedMonth + 3 else shiftedMonth - 9
  let year := era * 400 + yearOfEra
  ⟨if month ≤ 2 then year + 1 else year, month, day⟩

/-- The days from 1 January 1970 to the date. -/
def Date.toDays (d : Date) : Int :=
  let year := if d.month ≤ 2 then d.year - 1 else d.year
  let era := year.fdiv 400
  let yearOfEra := (year.fmod 400).toNat
  let shiftedMonth := if 2 < d.month then d.month - 3 else d.month + 9
  let dayOfYear := (153 * shiftedMonth + 2) / 5 + d.day - 1
  let dayOfEra := yearOfEra * 365 + yearOfEra / 4 - yearOfEra / 100 + dayOfYear
  era * daysPerEra + dayOfEra - epochShift

/-- The day of the week of a day count, from 0 for Sunday to 6 for Saturday; 1 January 1970 was a
Thursday. -/
def weekdayOf (days : Int) : Nat := ((days + 4).fmod 7).toNat

end Stencil.Calendar
