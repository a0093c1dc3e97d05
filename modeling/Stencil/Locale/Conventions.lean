import Stencil.Locale.Basic
import Stencil.Number.Places
import Stencil.Calendar.Pattern

/-!
# Conventions of a locale

How numbers, amounts of money, percentages, dates and times are written in each of the seven locales
of the table.  A language outside the table is written as American English; a known language with an
unknown region is written as in the first region of that language.

* `Conventions`: the conventions, `Locale.conventions` those of a locale;
* `groupDigits`: digits in groups of three;
* `Conventions.decimalText`: a magnitude with a set number of places.
-/

namespace Stencil

open Number Calendar

/-- How compact a date or a time is written. -/
inductive Style where
  | short
  | medium
  | long
  | full
  deriving DecidableEq

/-- The four patterns of one kind. -/
structure Patterns where
  short : String
  medium : String
  long : String
  full : String
  deriving DecidableEq

/-- The pattern of a style. -/
def Patterns.get (p : Patterns) : Style → String
  | .short => p.short
  | .medium => p.medium
  | .long => p.long
  | .full => p.full

/-- How a locale writes numbers, money, dates and times (`LocaleData`). -/
structure Conventions where
  language : String
  region : String
  names : Names
  decimalSeparator : Char
  groupingSeparator : Char
  currencySymbol : String
  /-- The symbol stands before the amount. -/
  currencyFirst : Bool
  /-- What stands between the symbol and the amount. -/
  currencySpacing : String
  /-- The places of an amount of money. -/
  currencyPlaces : Nat
  /-- What stands before a percent sign. -/
  percentSpacing : String
  date : Patterns
  time : Patterns
  /-- What stands between a date and a time. -/
  dateTimeSeparator : String
  deriving DecidableEq

/-- Digits with `separator` between groups of three, counted from the right. -/
def groupDigits (separator : Char) : List Char → List Char
  | [] => []
  | c :: rest =>
    if rest ≠ [] ∧ rest.length % 3 = 0 then c :: separator :: groupDigits separator rest
    else c :: groupDigits separator rest

namespace Conventions

/-- A pattern for a date and a time, both in one style. -/
def dateTimePattern (c : Conventions) (style : Style) : String :=
  c.date.get style ++ c.dateTimeSeparator ++ c.time.get style

/-- A magnitude with `places` digits after the decimal separator, its integer part in groups if
asked for (`format_decimal`).  The sign of the number is left out. -/
def decimalText (c : Conventions) (x : Binary64) (places : Nat) (grouped : Bool) : List Char :=
  let plain := x.abs.fixed places
  let (whole, fraction) := match Text.splitOnce '.' plain with
    | some (whole, fraction) => (whole, c.decimalSeparator :: fraction)
    | none => (plain, [])
  (if grouped then groupDigits c.groupingSeparator whole else whole) ++ fraction

end Conventions

/-! ## The table -/

/-- English names. -/
def englishNames : Names where
  shortMonths := ["Jan", "Feb", "Mar", "Apr", "May", "Jun", "Jul", "Aug", "Sep", "Oct", "Nov", "Dec"]
  months := ["January", "February", "March", "April", "May", "June", "July", "August", "September",
    "October", "November", "December"]
  weekdays := ["Sunday", "Monday", "Tuesday", "Wednesday", "Thursday", "Friday", "Saturday"]

/-- French names. -/
def frenchNames : Names where
  shortMonths := ["janv.", "févr.", "mars", "avril", "mai", "juin", "juil.", "août", "sept.", "oct.",
    "nov.", "déc."]
  months := ["janvier", "février", "mars", "avril", "mai", "juin", "juillet", "août", "septembre",
    "octobre", "novembre", "décembre"]
  weekdays := ["dimanche", "lundi", "mardi", "mercredi", "jeudi", "vendredi", "samedi"]

/-- German names. -/
def germanNames : Names where
  shortMonths := ["Jan", "Feb", "Mär", "Apr", "Mai", "Jun", "Jul", "Aug", "Sep", "Okt", "Nov", "Dez"]
  months := ["Januar", "Februar", "März", "April", "Mai", "Juni", "Juli", "August", "September",
    "Oktober", "November", "Dezember"]
  weekdays := ["Sonntag", "Montag", "Dienstag", "Mittwoch", "Donnerstag", "Freitag", "Samstag"]

/-- Spanish names. -/
def spanishNames : Names where
  shortMonths := ["ene", "feb", "mar", "abr", "may", "jun", "jul", "ago", "sep", "oct", "nov", "dic"]
  months := ["enero", "febrero", "marzo", "abril", "mayo", "junio", "julio", "agosto", "septiembre",
    "octubre", "noviembre", "diciembre"]
  weekdays := ["domingo", "lunes", "martes", "miércoles", "jueves", "viernes", "sábado"]

/-- Italian names. -/
def italianNames : Names where
  shortMonths := ["gen", "feb", "mar", "apr", "mag", "giu", "lug", "ago", "set", "ott", "nov", "dic"]
  months := ["gennaio", "febbraio", "marzo", "aprile", "maggio", "giugno", "luglio", "agosto",
    "settembre", "ottobre", "novembre", "dicembre"]
  weekdays := ["domenica", "lunedì", "martedì", "mercoledì", "giovedì", "venerdì", "sabato"]

/-- Japanese names; months are written as numbers. -/
def japaneseNames : Names where
  shortMonths := ["1月", "2月", "3月", "4月", "5月", "6月", "7月", "8月", "9月", "10月", "11月", "12月"]
  months := ["1月", "2月", "3月", "4月", "5月", "6月", "7月", "8月", "9月", "10月", "11月", "12月"]
  weekdays := ["日曜日", "月曜日", "火曜日", "水曜日", "木曜日", "金曜日", "土曜日"]

/-- Twenty-four hours, with the distance from UTC in the long styles. -/
def dayClock : Patterns := ⟨"%H:%M", "%H:%M:%S", "%H:%M:%S %:z", "%H:%M:%S %:z"⟩

/-- The conventions of American English. -/
def americanEnglish : Conventions where
  language := "en"
  region := "US"
  names := englishNames
  decimalSeparator := '.'
  groupingSeparator := ','
  currencySymbol := "$"
  currencyFirst := true
  currencySpacing := ""
  currencyPlaces := 2
  percentSpacing := ""
  date := ⟨"%-m/%-d/%y", "%b %-d, %Y", "%B %-d, %Y", "%A, %B %-d, %Y"⟩
  time := ⟨"%-I:%M %p", "%-I:%M:%S %p", "%-I:%M:%S %p %:z", "%-I:%M:%S %p %:z"⟩
  dateTimeSeparator := ", "

/-- The conventions of British English. -/
def britishEnglish : Conventions where
  language := "en"
  region := "GB"
  names := englishNames
  decimalSeparator := '.'
  groupingSeparator := ','
  currencySymbol := "£"
  currencyFirst := true
  currencySpacing := ""
  currencyPlaces := 2
  percentSpacing := ""
  date := ⟨"%d/%m/%Y", "%-d %b %Y", "%-d %B %Y", "%A, %-d %B %Y"⟩
  time := dayClock
  dateTimeSeparator := ", "

/-- The conventions of French in France. -/
def french : Conventions where
  language := "fr"
  region := "FR"
  names := frenchNames
  decimalSeparator := ','
  groupingSeparator := '\u202f'
  currencySymbol := "€"
  currencyFirst := false
  currencySpacing := "\u00a0"
  currencyPlaces := 2
  percentSpacing := "\u00a0"
  date := ⟨"%d/%m/%Y", "%-d %b %Y", "%-d %B %Y", "%A %-d %B %Y"⟩
  time := dayClock
  dateTimeSeparator := " "

/-- The conventions of German in Germany. -/
def german : Conventions where
  language := "de"
  region := "DE"
  names := germanNames
  decimalSeparator := ','
  groupingSeparator := '.'
  currencySymbol := "€"
  currencyFirst := false
  currencySpacing := "\u00a0"
  currencyPlaces := 2
  percentSpacing := "\u00a0"
  date := ⟨"%d.%m.%y", "%d.%m.%Y", "%-d. %B %Y", "%A, %-d. %B %Y"⟩
  time := dayClock
  dateTimeSeparator := ", "

/-- The conventions of Spanish in Spain. -/
def spanish : Conventions where
  language := "es"
  region := "ES"
  names := spanishNames
  decimalSeparator := ','
  groupingSeparator := '.'
  currencySymbol := "€"
  currencyFirst := false
  currencySpacing := "\u00a0"
  currencyPlaces := 2
  percentSpacing := "\u00a0"
  date := ⟨"%-d/%-m/%y", "%-d %b %Y", "%-d de %B de %Y", "%A, %-d de %B de %Y"⟩
  time := ⟨"%-H:%M", "%-H:%M:%S", "%-H:%M:%S %:z", "%-H:%M:%S %:z"⟩
  dateTimeSeparator := ", "

/-- The conventions of Italian in Italy. -/
def italian : Conventions where
  language := "it"
  region := "IT"
  names := italianNames
  decimalSeparator := ','
  groupingSeparator := '.'
  currencySymbol := "€"
  currencyFirst := false
  currencySpacing := "\u00a0"
  currencyPlaces := 2
  percentSpacing := ""
  date := ⟨"%d/%m/%y", "%-d %b %Y", "%-d %B %Y", "%A %-d %B %Y"⟩
  time := dayClock
  dateTimeSeparator := ", "

/-- The conventions of Japanese in Japan. -/
def japanese : Conventions where
  language := "ja"
  region := "JP"
  names := japaneseNames
  decimalSeparator := '.'
  groupingSeparator := ','
  currencySymbol := "￥"
  currencyFirst := true
  currencySpacing := ""
  currencyPlaces := 0
  percentSpacing := ""
  date := ⟨"%Y/%m/%d", "%Y/%m/%d", "%Y年%-m月%-d日", "%Y年%-m月%-d日 %A"⟩
  time := dayClock
  dateTimeSeparator := " "

/-- All conventions (`LOCALES`); of each language the first is its main region. -/
def conventionsTable : List Conventions :=
  [americanEnglish, britishEnglish, french, german, spanish, italian, japanese]

/-- The conventions of a locale (`data`): those of its language and region, else of its language,
else of American English. -/
def Locale.conventions (l : Locale) : Conventions :=
  let exact := conventionsTable.find? (fun c => c.language = l.language ∧ some c.region = l.region)
  let language := conventionsTable.find? (fun c => c.language = l.language)
  (exact.or language).getD americanEnglish

end Stencil
