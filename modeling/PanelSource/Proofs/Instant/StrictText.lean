import PanelSource.Proofs.Instant.RelaxedReading

/-! # Texts of the strict grammar

A text has a date with a year of four digits, a time of day and a zone, and may have a leap second
in any minute. These texts are what the strict grammar reads, and each of them can be written in
every zone whose clock shows a year of four digits. -/
namespace PanelSource

/-- UTC by its letter, or hours and minutes ahead of it or behind it. A minus is the hyphen or the
sign of its own. -/
inductive StrictZone
  | letter (small : Bool)
  | clock (sign : ZoneSign) (hours : Fin 24) (minutes : Fin 60)

namespace StrictZone

/-- Seconds east of the meridian. -/
def seconds : StrictZone → ℤ
  | letter _ => 0
  | clock .plus hours minutes => (hours * 3600 + minutes * 60 : ℕ)
  | clock _ hours minutes => -(hours * 3600 + minutes * 60 : ℕ)

def chars : StrictZone → List Char
  | letter small => [if small then 'z' else 'Z']
  | clock sign hours minutes => sign.char :: ZoneText.clockChars hours minutes

/-- Zones are whole minutes less than a day apart from the meridian. -/
theorem seconds_mem (z : StrictZone) :
    -86400 < z.seconds ∧ z.seconds < 86400 ∧ 60 ∣ z.seconds := by
  cases z with
  | letter small => simp [seconds]
  | clock sign hours minutes =>
    cases sign <;> simp only [seconds] <;> omega

end StrictZone

structure StrictText where
  date : Date
  isDate : Date.ofParts? date.year date.month date.day = some date
  nonneg : 0 ≤ date.year
  short : date.year ≤ 9999
  mark : Char
  isMark : mark = 'T' ∨ mark = 't' ∨ mark = ' '
  hour : Fin 24
  minute : Fin 60
  second : Fin 61
  fraction : List (Fin 10)
  zone : StrictZone

namespace StrictText

def chars (w : StrictText) : List Char :=
  Instant.strictChars w.date w.mark w.hour w.minute w.second w.fraction w.zone.chars

def text (w : StrictText) : String := String.ofList w.chars

/-- Seconds since 1970, the leap second of a minute like the first second of the next one. -/
def seconds (w : StrictText) : ℚ :=
  (w.date.toDay * 86400 + (w.hour * 3600 + w.minute * 60 + w.second : ℕ) - w.zone.seconds : ℤ) +
    InstantText.fractionValue w.fraction

/-- Whole seconds since 1970; a leap second goes on behind the second before it. -/
def wholeSeconds (w : StrictText) : ℤ :=
  w.date.toDay * 86400 + (w.hour * 3600 + w.minute * 60 + min w.second.val 59 : ℕ) - w.zone.seconds

def instant (w : StrictText) : Instant :=
  ⟨w.wholeSeconds, if w.second.val = 60
    then ⌊InstantText.fractionValue w.fraction * 10 ^ 9⌋₊ + 1000000000
    else ⌊InstantText.fractionValue w.fraction * 10 ^ 9⌋₊⟩

/-- The year that the clock of a zone shows at the time of a text. -/
def yearIn (w : StrictText) (z : StrictZone) : ℤ :=
  Calendar.yearOfDay ((w.wholeSeconds + z.seconds) / 86400)

end StrictText

namespace Instant

theorem endsFraction_strictZone (z : StrictZone) : EndsFraction z.chars := by
  cases z with
  | letter small => cases small <;> exact endsFraction_cons rfl (by decide) _
  | clock sign => cases sign <;> exact endsFraction_cons rfl (by decide) _

theorem zone?_strictZone (z : StrictZone) : zone? (sign? ':') z.chars = some (z.seconds, []) := by
  cases z with
  | letter small => cases small <;> rfl
  | clock sign hours minutes =>
    have hletter : ¬(sign.char = 'Z' ∨ sign.char = 'z') := by cases sign <;> decide
    rw [StrictZone.chars, zone?, if_neg hletter,
      offset?_clockChars hours minutes (zoneSign?_char sign)]
    cases sign <;> rfl

theorem exists_strictZone {cs rest : List Char} {offset : ℤ}
    (h : zone? (sign? ':') cs = some (offset, rest)) :
    ∃ z : StrictZone, cs = z.chars ++ rest ∧ z.seconds = offset := by
  cases cs with
  | nil => cases h
  | cons c cs =>
    rw [zone?] at h
    split at h
    · rename_i hletter
      cases h
      rcases hletter with rfl | rfl
      · exact ⟨.letter false, rfl, rfl⟩
      · exact ⟨.letter true, rfl, rfl⟩
    · obtain ⟨sign, hours, minutes, behind, rfl, rfl, hcolon, rfl⟩ := exists_offset h
      refine ⟨.clock sign hours minutes, ?_, ?_⟩
      · rw [sign?_eq_some hcolon]
        simp [StrictZone.chars, ZoneText.clockChars]
      · cases sign <;> rfl

/-- What is read is a text of the grammar. -/
theorem exists_strictText {s : String} {t : Instant} (h : ofStrictText? s = some t) :
    ∃ w : StrictText, w.text = s ∧ w.instant = t := by
  obtain ⟨⟨year, cs₁⟩, hyear, h⟩ := Option.bind_eq_some_iff.mp h
  obtain ⟨cs₂, hsign, h⟩ := Option.bind_eq_some_iff.mp h
  obtain ⟨⟨month, cs₃⟩, hmonth, h⟩ := Option.bind_eq_some_iff.mp h
  obtain ⟨cs₄, hsign', h⟩ := Option.bind_eq_some_iff.mp h
  obtain ⟨⟨day, cs₅⟩, hday, h⟩ := Option.bind_eq_some_iff.mp h
  obtain ⟨cs₆, hmark, h⟩ := Option.bind_eq_some_iff.mp h
  obtain ⟨⟨hour, cs₇⟩, hhour, h⟩ := Option.bind_eq_some_iff.mp h
  obtain ⟨cs₈, hcolon, h⟩ := Option.bind_eq_some_iff.mp h
  obtain ⟨⟨minute, cs₉⟩, hminute, h⟩ := Option.bind_eq_some_iff.mp h
  obtain ⟨cs₁₀, hcolon', h⟩ := Option.bind_eq_some_iff.mp h
  obtain ⟨⟨second, cs₁₁⟩, hsecond, h⟩ := Option.bind_eq_some_iff.mp h
  obtain ⟨⟨nanos, cs₁₂⟩, hfraction, h⟩ := Option.bind_eq_some_iff.mp h
  obtain ⟨⟨offset, cs₁₃⟩, hzone, h⟩ := Option.bind_eq_some_iff.mp h
  obtain ⟨hend, h⟩ := Option.ite_none_right_eq_some.mp h
  obtain ⟨date, hdate, h⟩ := Option.bind_eq_some_iff.mp h
  obtain ⟨⟨hhour24, hminute60, hsecond60, -, -⟩, hlocal⟩ := Option.ite_none_right_eq_some.mp h
  obtain ⟨mark, hmarkChars, isMark⟩ := dateMark?_eq_some hmark
  obtain ⟨fraction, hfractionChars, rfl⟩ := exists_fraction hfraction
  obtain ⟨zone, hzoneChars, rfl⟩ := exists_strictZone hzone
  obtain ⟨hyearChars, hshort⟩ := exists_padded four_pos hyear
  obtain ⟨rfl, -⟩ := Date.ofParts?_eq_some hdate
  let w : StrictText := {
    date := ⟨year, month, day⟩
    isDate := hdate
    nonneg := Int.natCast_nonneg year
    short := by change (year : ℤ) ≤ 9999; omega
    mark := mark
    isMark := isMark
    hour := ⟨hour, hhour24⟩
    minute := ⟨minute, hminute60⟩
    second := ⟨second, Nat.lt_succ_of_le hsecond60⟩
    fraction := fraction
    zone := zone }
  have hchars : w.chars = s.toList := by
    rw [hyearChars, sign?_eq_some hsign, exists_two hmonth, sign?_eq_some hsign', exists_two hday,
      hmarkChars, exists_two hhour, sign?_eq_some hcolon, exists_two hminute,
      sign?_eq_some hcolon', exists_two hsecond, hfractionChars, hzoneChars, hend, List.append_nil]
    rfl
  refine ⟨w, ?_, Option.some.inj hlocal⟩
  rw [StrictText.text, hchars, String.ofList_toList]

end Instant

namespace StrictText

/-- A text is read as what it says. -/
theorem ofStrictText?_text (w : StrictText) : Instant.ofStrictText? w.text = some w.instant := by
  obtain ⟨hahead, hbehind, -⟩ := w.zone.seconds_mem
  have hsecond : w.second.val ≤ 60 := Nat.le_of_lt_succ w.second.isLt
  have hlocal := Instant.ofLocal?_of_mem w.isDate w.nonneg w.short w.hour.isLt w.minute.isLt
    hsecond ⌊InstantText.fractionValue w.fraction * 10 ^ 9⌋₊ hahead hbehind
  rw [Instant.ofStrictText?, text, String.toList_ofList]
  exact Instant.strict?_strictChars w.isDate w.nonneg w.short w.isMark w.hour.isLt w.minute.isLt
    hsecond w.fraction (Instant.endsFraction_strictZone w.zone) (Instant.zone?_strictZone w.zone)
    hlocal

theorem ofStrictText?_eq_some_iff {s : String} {t : Instant} :
    Instant.ofStrictText? s = some t ↔ ∃ w : StrictText, w.text = s ∧ w.instant = t := by
  refine ⟨Instant.exists_strictText, ?_⟩
  rintro ⟨w, rfl, rfl⟩
  exact w.ofStrictText?_text

/-- A leap second is the second behind the whole seconds. -/
theorem seconds_eq (w : StrictText) :
    w.seconds = ((w.wholeSeconds + if w.second.val = 60 then 1 else 0 : ℤ) : ℚ) +
      InstantText.fractionValue w.fraction := by
  have hsecond : w.second.val ≤ 60 := Nat.le_of_lt_succ w.second.isLt
  have hwhole : w.date.toDay * 86400 + (w.hour * 3600 + w.minute * 60 + w.second : ℕ) -
      w.zone.seconds = w.wholeSeconds + if w.second.val = 60 then 1 else 0 := by
    rw [wholeSeconds]
    split <;> omega
  rw [seconds, hwhole]

/-- To milliseconds a text is rounded down. -/
theorem millis_instant (w : StrictText) : w.instant.millis = ⌊w.seconds * 1000⌋ := by
  rw [seconds_eq, ← Instant.millis_fractionValue, instant, Instant.millis, Instant.millis]
  split
  · simp only
    omega
  · rw [add_zero]

theorem yearIn_zone (w : StrictText) : w.yearIn w.zone = w.date.year := by
  have hday : (w.wholeSeconds + w.zone.seconds) / 86400 = w.date.toDay := by
    rw [wholeSeconds]
    omega
  rw [yearIn, hday, ← Date.year_ofDay, Date.ofDay_toDay w.isDate]

/-- A text can be written in just the zones whose clocks show a year of four digits. -/
theorem exists_inZone_iff (w : StrictText) (z : StrictZone) :
    (∃ w' : StrictText, w'.zone = z ∧ w'.wholeSeconds = w.wholeSeconds ∧ w'.seconds = w.seconds) ↔
      0 ≤ w.yearIn z ∧ w.yearIn z ≤ 9999 := by
  constructor
  · rintro ⟨w', rfl, hwhole, -⟩
    have hyear : w.yearIn w'.zone = w'.date.year := by
      rw [← w'.yearIn_zone, yearIn, yearIn, hwhole]
    rw [hyear]
    exact ⟨w'.nonneg, w'.short⟩
  · rintro ⟨hnonneg, hshort⟩
    obtain ⟨date, hour, minute, second, hdate, hyear, hclock⟩ :=
      Instant.exists_timeOfDay (w.wholeSeconds + z.seconds)
    obtain ⟨-, -, hminutes⟩ := z.seconds_mem
    obtain ⟨-, -, hminutes'⟩ := w.zone.seconds_mem
    have hsecond : second.val = min w.second.val 59 := by
      rw [wholeSeconds] at hclock
      omega
    let w' : StrictText := {
      date := date
      isDate := hdate
      nonneg := hyear ▸ hnonneg
      short := hyear ▸ hshort
      mark := w.mark
      isMark := w.isMark
      hour := hour
      minute := minute
      second := w.second
      fraction := w.fraction
      zone := z }
    have hwhole : w'.wholeSeconds = w.wholeSeconds := by
      change date.toDay * 86400 + (hour * 3600 + minute * 60 + min w.second.val 59 : ℕ) -
        z.seconds = w.wholeSeconds
      omega
    exact ⟨w', rfl, hwhole, by rw [seconds_eq, seconds_eq, hwhole]⟩

end StrictText
end PanelSource
