import Stencil.Modifier.Conversion

/-!
# The format modifier

Writes a scalar as its argument says: as an amount of money, a percentage, a date or a time in the
style of a locale, in an ISO 8601 form, or under a conversion pattern.  A scalar that the asked form
cannot show stays as it is.

* `Settings`: the locale and the distance from UTC that a form is written for;
* `Form.ofArgument`: the form that an argument names; whatever names none is a conversion pattern;
* `Form.render?`: the text of a scalar in a form;
* `format`: the modifier.
-/

namespace Stencil

open Number Calendar

/-- What values are written for (`ModifierContext`): a locale, and the distance from UTC in
seconds. -/
structure Settings where
  locale : Locale
  offset : Int
  deriving DecidableEq

namespace Format

/-- The part of a moment that is shown (`Temporal`). -/
inductive Part where
  | date
  | time
  | dateTime
  deriving DecidableEq

/-- The forms a scalar can be written in. -/
inductive Form where
  | currency
  | percent
  | localized (part : Part) (style : Style)
  | iso (part : Part)
  | pattern (text : String)
  deriving DecidableEq

/-- The form an argument names, by the cases of `format_value`. -/
def Form.ofArgument : String → Form
  | "currency" => .currency
  | "percent" => .percent
  | "shortDate" => .localized .date .short
  | "mediumDate" => .localized .date .medium
  | "longDate" => .localized .date .long
  | "fullDate" => .localized .date .full
  | "shortTime" => .localized .time .short
  | "mediumTime" => .localized .time .medium
  | "longTime" => .localized .time .long
  | "fullTime" => .localized .time .full
  | "shortDateTime" => .localized .dateTime .short
  | "mediumDateTime" => .localized .dateTime .medium
  | "longDateTime" => .localized .dateTime .long
  | "fullDateTime" => .localized .dateTime .full
  | "isoDate" => .iso .date
  | "isoTime" => .iso .time
  | "isoDateTime" => .iso .dateTime
  | text => .pattern text

/-- The finite number of a scalar (`number`). -/
def finite? : Scalar → Option Binary64
  | .number n => some n.toBinary64 |>.filter Binary64.isFinite
  | _ => none

/-- An amount of money (`currency`): the symbol and the grouped magnitude in the order of the
locale, behind the sign. -/
def currencyText (c : Conventions) (x : Binary64) : List Char :=
  let digits := c.decimalText x c.currencyPlaces true
  let sign := if x.belowZero then ['-'] else []
  let symbol := c.currencySymbol.toList
  let spacing := c.currencySpacing.toList
  sign ++ (if c.currencyFirst then symbol ++ spacing ++ digits else digits ++ spacing ++ symbol)

/-- A ratio as a whole percentage (`percent`).  The sign is left out when nothing but zeros is
written. -/
def percentText (c : Conventions) (x : Binary64) : List Char :=
  let digits := c.decimalText (x.scaled 100 1) 0 true
  let sign := if x.belowZero && digits.any (· ≠ '0') then ['-'] else []
  sign ++ digits ++ c.percentSpacing.toList ++ ['%']

/-- The instant of a scalar: a timestamp, or an integer number of milliseconds. -/
def instant? : Scalar → Option Timestamp
  | .timestamp t => some t
  | .number n => if n.isInteger then some ⟨n.toInt64⟩ else none
  | _ => none

/-- The pattern of a part of a moment in a style (`localized`). -/
def localizedPattern (c : Conventions) (style : Style) : Part → String
  | .date => c.date.get style
  | .time => c.time.get style
  | .dateTime => c.dateTimePattern style

/-- The ISO 8601 pattern of a part of a moment. -/
def isoPattern : Part → String
  | .date => "%Y-%m-%d"
  | .time => "%H:%M:%S%.f"
  | .dateTime => "%Y-%m-%dT%H:%M:%S%.f"

/-- A part of a moment in ISO 8601 form, behind it `Z` or the distance from UTC (`iso`). -/
def isoText (m : Moment) (part : Part) : List Char :=
  Pattern.render englishNames (isoPattern part).toList m
    ++ (if m.offset = 0 then ['Z'] else offsetText m.offset)

/-- The text of a scalar in a form, if the form can show it. -/
def Form.render? (settings : Settings) (value : Scalar) : Form → Option (List Char)
  | .currency => (finite? value).map (currencyText settings.locale.conventions)
  | .percent => (finite? value).map (percentText settings.locale.conventions)
  | .localized part style => do
    let m ← (← instant? value).moment? settings.offset
    let c := settings.locale.conventions
    pure (Pattern.render c.names (localizedPattern c style part).toList m)
  | .iso part => do
    let m ← (← instant? value).moment? settings.offset
    pure (isoText m part)
  | .pattern text => some (Conversion.expand text value settings.locale.conventions).toList

end Format

/-- The format modifier (`format_value`): the scalar in the form that the argument names, or
unchanged when there is no argument or the form cannot show it. -/
def format (value : Scalar) (argument : Option String) (settings : Settings) : Scalar :=
  match argument with
  | none => value
  | some name =>
    match (Format.Form.ofArgument name).render? settings value with
    | some text => .text (String.ofList text)
    | none => value

end Stencil
