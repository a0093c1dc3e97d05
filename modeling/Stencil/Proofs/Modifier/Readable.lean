import Stencil.Proofs.Modifier.Instant
import Stencil.Proofs.Calendar.Iso

/-!
# Dates and times that can be read back

The ISO 8601 form of an instant is its date and time at some distance from UTC, and that distance.
The two move together, so that the form tells the instant to the millisecond at any distance of whole
minutes.

- `isoText_dateTime`: the parts of the form;
- `format_exact`: **what is written for an instant is read as that instant**, so that different
  instants are written in different ways.
-/

namespace Stencil.Format

open Calendar Number

/-- What stands behind a date or a time for the distance from UTC. -/
def zoneText (offset : Int) : List Char := if offset = 0 then ['Z'] else offsetText offset

/-- A date and a time, with the letter T between them and the distance from UTC behind them. -/
theorem isoText_dateTime (m : Moment) :
    isoText m .dateTime =
      yearText m.date.year ++ '-' :: (padded 2 m.date.month ++ '-' :: (padded 2 m.date.day ++
        'T' :: (padded 2 m.hour ++ ':' :: (padded 2 m.minute ++ ':' :: (padded 2 m.second ++
          (fractionText m.millisecond ++ zoneText m.offset)))))) := by
  have hpieces : Pattern.pieces (isoPattern .dateTime).toList =
      [.field .year, .literal '-', .field (.month 2), .literal '-', .field (.day 2), .literal 'T',
        .field (.hour 2), .literal ':', .field .minute, .literal ':', .field .second,
        .field .fractionOfSecond] := by
    decide +kernel
  simp [isoText, Pattern.render, hpieces, Calendar.Piece.render, Field.render, zoneText]

theorem zone?_zoneText {minutes : Int} (h : minutes.natAbs < 1440) :
    Iso.zone? (zoneText (minutes * 60)) = some (minutes, []) := by
  unfold zoneText
  split
  · next hzero =>
    obtain rfl : minutes = 0 := by omega
    rfl
  · exact Iso.zone?_offsetText h

/-- The form of an instant at a distance of whole minutes is read as that instant. -/
theorem instant?_isoText (millis : Int) {minutes : Int} (h : minutes.natAbs < 1440) :
    Iso.instant? (isoText (.ofMillis millis (minutes * 60)) .dateTime) = some millis := by
  obtain ⟨hvalid, hinstant⟩ := Moment.ofMillis_spec millis (minutes * 60)
  have hzone : Iso.zone? (zoneText (Moment.ofMillis millis (minutes * 60)).offset) =
      some (minutes, []) := zone?_zoneText h
  rw [Int.mul_assoc] at hinstant
  rw [isoText_dateTime, Iso.instant?_text hvalid hzone]
  exact congrArg some hinstant

/-- **What is written for an instant is read as that instant**, at every distance from UTC of whole
minutes and less than a day.  So different instants are written in different ways. -/
theorem format_exact {settings : Settings} {minutes : Int}
    (hoffset : settings.offset = minutes * 60) (hday : minutes.natAbs < 1440) :
    (∀ t : Timestamp, inRange t.millis.toInt = true →
      ∃ text, format (.timestamp t) (some "isoDateTime") settings = .text text ∧
        Iso.instant? text.toList = some t.millis.toInt) ∧
    ∀ t t' : Timestamp, inRange t.millis.toInt = true → inRange t'.millis.toInt = true →
      format (.timestamp t) (some "isoDateTime") settings =
        format (.timestamp t') (some "isoDateTime") settings → t = t' := by
  have hargument : "isoDateTime" = argument .dateTime none := by decide +kernel
  have hread : ∀ t : Timestamp, inRange t.millis.toInt = true →
      ∃ text, format (.timestamp t) (some "isoDateTime") settings = .text text ∧
        Iso.instant? text.toList = some t.millis.toInt := by
    intro t ht
    have hmoment : Moment.at? t.millis.toInt settings.offset =
        some (.ofMillis t.millis.toInt (minutes * 60)) := by
      rw [Moment.at?, if_pos ht, hoffset]
    refine ⟨String.ofList (isoText (.ofMillis t.millis.toInt (minutes * 60)) .dateTime), ?_, ?_⟩
    · rw [hargument, format_instant (t := t) rfl, instantText?, hmoment]
      rfl
    · rw [String.toList_ofList, instant?_isoText _ hday]
  refine ⟨hread, fun t t' ht ht' heq => ?_⟩
  obtain ⟨text, htext, hinstant⟩ := hread t ht
  obtain ⟨text', htext', hinstant'⟩ := hread t' ht'
  have hsame : text = text' := Scalar.text.inj (htext.symm.trans (heq.trans htext'))
  rw [hsame, hinstant'] at hinstant
  have hmillis : t.millis = t'.millis := Int64.toInt_inj.mp (Option.some.inj hinstant).symm
  cases t
  cases t'
  exact congrArg Timestamp.mk hmillis

/-- The first instant of all and the millisecond before 1970, half an hour west of UTC. -/
theorem format_exact_halfHour :
    let settings : Settings := ⟨.default, -1800⟩
    let first : Timestamp := ⟨-8334601228800000⟩
    let late : Timestamp := ⟨-1⟩
    (settings.offset = -30 * 60 ∧ Int.natAbs (-30) < 1440) ∧
      (inRange first.millis.toInt = true ∧ inRange late.millis.toInt = true) ∧
      (∃ text, format (.timestamp first) (some "isoDateTime") settings = .text text ∧
        Iso.instant? text.toList = some (-8334601228800000)) ∧
      format (.timestamp first) (some "isoDateTime") settings ≠
        format (.timestamp late) (some "isoDateTime") settings := by
  intro settings first late
  have hoffset : settings.offset = -30 * 60 := by decide
  have hday : Int.natAbs (-30) < 1440 := by decide
  have hfirst : inRange first.millis.toInt = true := by decide +kernel
  have hlate : inRange late.millis.toInt = true := by decide +kernel
  obtain ⟨hread, hdifferent⟩ := format_exact hoffset hday
  exact ⟨⟨hoffset, hday⟩, ⟨hfirst, hlate⟩, hread first hfirst,
    fun heq => absurd (hdifferent first late hfirst hlate heq) (by decide)⟩

example : format (.timestamp ⟨-1⟩) (some "isoDateTime") ⟨.default, -1800⟩ =
    .text "1969-12-31T23:29:59.999-00:30" := by
  decide +kernel

end Stencil.Format
