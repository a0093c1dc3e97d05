import Stencil.Calendar.Date

/-!
# Local date and time of an instant

An instant is a number of milliseconds since 1 January 1970, midnight UTC.  A moment is what clocks
and calendars show at that instant at a given distance from UTC, as `chrono` documents it for its
dates with an offset, and within the range of them.

* `inRange`: the instants that can be shown at all;
* `Moment.at? millis offset`: the moment of an instant, `none` out of range.
-/

namespace Stencil.Calendar

/-- What clocks and calendars show: `offset` is the distance from UTC in seconds, east positive. -/
structure Moment where
  date : Date
  weekday : Nat
  hour : Nat
  minute : Nat
  second : Nat
  millisecond : Nat
  offset : Int
  deriving DecidableEq

/-- The milliseconds of a day. -/
def millisPerDay : Int := 86400000

/-- The first instant that can be shown. -/
def firstInstant : Int := -8334601228800000

/-- The last instant that can be shown. -/
def lastInstant : Int := 8210266876799999

/-- Instants outside this range have no date. -/
def inRange (millis : Int) : Bool := firstInstant ≤ millis && millis ≤ lastInstant

/-- The moment of an instant at `offset` seconds from UTC.  The local date may lie outside the range
of instants. -/
def Moment.ofMillis (millis offset : Int) : Moment :=
  let shown := millis + offset * 1000
  let days := shown.fdiv millisPerDay
  let rest := (shown.fmod millisPerDay).toNat
  { date := Date.ofDays days
    weekday := weekdayOf days
    hour := rest / 3600000
    minute := rest / 60000 % 60
    second := rest / 1000 % 60
    millisecond := rest % 1000
    offset := offset }

/-- The moment of an instant, or nothing when the instant is out of range. -/
def Moment.at? (millis offset : Int) : Option Moment :=
  if inRange millis then some (ofMillis millis offset) else none

/-- The instant of a moment. -/
def Moment.toMillis (m : Moment) : Int :=
  m.date.toDays * millisPerDay + m.hour * 3600000 + m.minute * 60000 + m.second * 1000
    + m.millisecond - m.offset * 1000

end Stencil.Calendar
