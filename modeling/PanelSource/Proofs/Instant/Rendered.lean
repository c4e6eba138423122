import PanelSource.Instant.Text
import PanelSource.Proofs.Instant.RelaxedReading

/-! # Written instants are read again

What is written of an instant is a text of the relaxed grammar without blanks, in UTC, that says
this instant. So instants that have been read are written alike only when they are the same. -/
namespace PanelSource

namespace Instant

/-- What a text can say: a day that instants may have, and nanoseconds of a whole second or, at the
end of a minute, of its leap second. -/
structure Readable (t : Instant) : Prop where
  day : admitted (Date.ofDay (t.seconds / 86400)) = true
  nanos_lt : t.nanos < 2000000000
  leap : 1000000000 ≤ t.nanos → t.seconds % 60 = 59

end Instant

/-- Zones differ by whole minutes. -/
theorem RelaxedZone.minutes_dvd (z : RelaxedZone) : 60 ∣ z.seconds := by
  cases z with
  | letter small => exact dvd_zero 60
  | word smallU smallT smallC => exact dvd_zero 60
  | clock sign hours separator hseparator minutes => cases sign <;> simp only [seconds] <;> omega

namespace RelaxedText

theorem floor_fraction_lt (w : RelaxedText) :
    ⌊InstantText.fractionValue w.fraction * 10 ^ 9⌋₊ < 1000000000 := by
  obtain ⟨hnonneg, hlt⟩ := InstantText.fractionValue_mem w.fraction
  refine (Nat.floor_lt (by positivity)).mpr ?_
  push_cast
  linarith

theorem readable {w : RelaxedText} (h : w.Admitted) : w.instant.Readable := by
  have hfraction := w.floor_fraction_lt
  have hzone := w.zone.minutes_dvd
  have hsecond := w.second_le
  rw [instant]
  refine ⟨h.2, ?_, fun hleap => ?_⟩
  · dsimp only
    split <;> omega
  · dsimp only at hleap ⊢
    rw [wholeSeconds]
    split at hleap <;> omega

end RelaxedText

theorem Instant.readable_of_ofText? {s : String} {t : Instant} (h : ofText? s = some t) :
    t.Readable := by
  obtain ⟨w, -, hadmitted, rfl⟩ := exists_relaxedText h
  exact RelaxedText.readable hadmitted

def Numeral.padded {width n : ℕ} (h : n < 10 ^ width) (hwidth : 0 < width) : Numeral width where
  chars := (Text.padded width n).toList
  digits := Text.all_isDigit_padded width n
  pos := by rwa [Text.length_padded h hwidth]
  short := (Text.length_padded h hwidth).le

theorem Numeral.chars_padded {width n : ℕ} (h : n < 10 ^ width) (hwidth : 0 < width) :
    (Numeral.padded h hwidth).chars = (Text.padded width n).toList := by rw [Numeral.padded]

theorem Numeral.value_padded {width n : ℕ} (h : n < 10 ^ width) (hwidth : 0 < width) :
    (Numeral.padded h hwidth).value = n := by
  rw [Numeral.value, chars_padded, Text.digitsValue_padded]

theorem Numeral.exists_padded (width n : ℕ) : ∃ (most : ℕ) (ds : Numeral most),
    ds.chars = (Text.padded width n).toList ∧ ds.value = n := by
  have hpos : 0 < (Text.padded width n).toList.length := by
    have hdigits := Nat.length_toDigits_pos (b := 10) (n := n)
    rw [Text.padded, String.toList_ofList, List.length_append]
    omega
  refine ⟨_, ⟨_, Text.all_isDigit_padded width n, hpos, le_rfl⟩, ?_, ?_⟩
  · dsimp only
  · rw [Numeral.value, Text.digitsValue_padded]

/-- Years are written as the relaxed grammar has them. -/
theorem YearText.exists_yearText (year : ℤ) :
    ∃ y : YearText, y.chars = (Date.yearText year).toList ∧ y.value = year := by
  rw [Date.yearText]
  split
  · rename_i hplain
    have hyear : year.toNat < 10 ^ 4 := by omega
    refine ⟨.plain (Numeral.padded hyear four_pos), Numeral.chars_padded _ _, ?_⟩
    rw [YearText.value, Numeral.value_padded]
    omega
  · obtain ⟨most, ds, hchars, hvalue⟩ := Numeral.exists_padded 4 year.natAbs
    split
    · refine ⟨.signed true ds, by simp [YearText.chars, hchars], ?_⟩
      rw [YearText.value, hvalue]
      omega
    · refine ⟨.signed false ds, by simp [YearText.chars, hchars], ?_⟩
      rw [YearText.value, hvalue]
      omega

namespace InstantText

/-- A number behind a point is a fraction of a second. -/
theorem exists_fraction (width n : ℕ) (hn : n < 10 ^ width) (hpos : 0 < width)
    (hwidth : width ≤ 9) : ∃ ds, fractionChars ds = ("." ++ Text.padded width n).toList ∧
      ⌊fractionValue ds * 10 ^ 9⌋₊ = n * 10 ^ (9 - width) := by
  have hchars := digitChars_digitsOf (Text.all_isDigit_padded width n)
  have hlength : (digitsOf (Text.padded width n).toList).length = width := by
    rw [digitsOf, List.length_map, Text.length_padded hn hpos]
  refine ⟨digitsOf (Text.padded width n).toList, ?_, ?_⟩
  · rw [fractionChars, if_neg (List.ne_nil_of_length_pos (by omega)), hchars, String.toList_append]
    rfl
  · rw [floor_fractionValue, List.take_of_length_le (by omega), hchars, hlength,
      Text.digitsValue_padded]

/-- The shortest fraction is exact. -/
theorem exists_fractionText {nanos : ℕ} (h : nanos < 1000000000) :
    ∃ ds, fractionChars ds = (Instant.fractionText nanos).toList ∧
      ⌊fractionValue ds * 10 ^ 9⌋₊ = nanos := by
  rw [Instant.fractionText]
  split
  · rename_i hzero
    refine ⟨[], rfl, ?_⟩
    rw [fractionValue, zero_mul, Nat.floor_zero, hzero]
  · split
    · obtain ⟨ds, hchars, hvalue⟩ := exists_fraction 3 (nanos / 1000000)
        (by omega) (by decide) (by decide)
      exact ⟨ds, hchars, hvalue.trans (by omega)⟩
    · split
      · obtain ⟨ds, hchars, hvalue⟩ := exists_fraction 6 (nanos / 1000)
          (by omega) (by decide) (by decide)
        exact ⟨ds, hchars, hvalue.trans (by omega)⟩
      · obtain ⟨ds, hchars, hvalue⟩ := exists_fraction 9 nanos
          (by omega) (by decide) (by decide)
        exact ⟨ds, hchars, hvalue.trans (by omega)⟩

end InstantText

namespace RelaxedText

section
variable {date : Date} (hdate : Date.ofParts? date.year date.month date.day = some date)
  {year : YearText} (hyear : year.value = date.year) {hour minute second : ℕ} (hhour : hour < 24)
  (hminute : minute < 60) (hsecond : second ≤ 60) (fraction : List (Fin 10))

/-- A time in UTC, with two digits for every number but the year, and no blanks. -/
def plain : RelaxedText :=
  have hparts := (Date.ofParts?_eq_some hdate).2
  { gap := fun _ => .none
    year := year
    month := .padded (n := date.month) (by omega) two_pos
    day := .padded (n := date.day) (by omega) two_pos
    date := date
    isDate := by rw [hyear, Numeral.value_padded, Numeral.value_padded, hdate]
    mark := 'T'
    isMark := isMark_written
    hour := .padded (n := hour) (by omega) two_pos
    hour_lt := by rwa [Numeral.value_padded]
    minute := .padded (n := minute) (by omega) two_pos
    minute_lt := by rwa [Numeral.value_padded]
    second := .padded (n := second) (by omega) two_pos
    second_le := by rwa [Numeral.value_padded]
    fraction := fraction
    zone := .letter false }

theorem chars_plain : (plain hdate hyear hhour hminute hsecond fraction).chars =
    year.chars ++ '-' :: ((Text.padded 2 date.month).toList ++ '-' ::
      ((Text.padded 2 date.day).toList ++ 'T' :: ((Text.padded 2 hour).toList ++ ':' ::
        ((Text.padded 2 minute).toList ++ ':' :: ((Text.padded 2 second).toList ++
          (InstantText.fractionChars fraction ++ ['Z'])))))) := by
  simp [chars, plain, Blanks.none, Numeral.chars_padded, RelaxedZone.chars]

theorem wholeSeconds_plain : (plain hdate hyear hhour hminute hsecond fraction).wholeSeconds =
    date.toDay * 86400 + (hour * 3600 + minute * 60 + min second 59 : ℕ) := by
  simp [wholeSeconds, plain, Numeral.value_padded, RelaxedZone.seconds]

theorem second_plain :
    (plain hdate hyear hhour hminute hsecond fraction).second.value = second := by
  rw [plain, Numeral.value_padded]

end

end RelaxedText

namespace Instant

/-- What is written of an instant is a text that says it. -/
theorem exists_text_render {t : Instant} (h : Readable t) :
    ∃ w : RelaxedText, w.text = t.render ∧ w.Admitted ∧ w.instant = t := by
  obtain ⟨seconds, nanos⟩ := t
  obtain ⟨hday, hnanos, hleap⟩ := h
  dsimp only at hday hnanos hleap
  obtain ⟨rest, hrest⟩ : ∃ rest, rest = (seconds % 86400).toNat := ⟨_, rfl⟩
  obtain ⟨hdate, htoDay⟩ := Date.ofParts?_ofDay (seconds / 86400)
  obtain ⟨year, hyear, hyearValue⟩ := YearText.exists_yearText (Date.ofDay (seconds / 86400)).year
  have hmod : nanos % 1000000000 < 1000000000 := Nat.mod_lt _ (by decide)
  obtain ⟨fraction, hfraction, hfractionValue⟩ := InstantText.exists_fractionText hmod
  have hhour : rest / 3600 < 24 := by omega
  have hminute : rest / 60 % 60 < 60 := by omega
  have hsecond : rest % 60 + nanos / 1000000000 ≤ 60 := by omega
  let w := RelaxedText.plain hdate hyearValue hhour hminute hsecond fraction
  have hwhole : w.wholeSeconds = seconds := by
    rw [RelaxedText.wholeSeconds_plain, htoDay]
    omega
  have hadmitted : w.Admitted := by
    rw [RelaxedText.Admitted, hwhole]
    exact ⟨hday, hday⟩
  refine ⟨w, ?_, hadmitted, ?_⟩
  · apply String.toList_injective
    rw [RelaxedText.text, String.toList_ofList, RelaxedText.chars_plain, hyear, hfraction, render]
    simp [hrest]
  · rw [RelaxedText.instant, hwhole, RelaxedText.second_plain, show w.fraction = fraction from rfl,
      hfractionValue]
    refine congrArg (Instant.mk seconds) ?_
    split <;> omega

/-- An instant that can be read is read from what is written of it. -/
theorem ofText?_render {t : Instant} (h : Readable t) : ofText? t.render = some t := by
  obtain ⟨w, hrender, hadmitted, hinstant⟩ := exists_text_render h
  rw [← hrender, RelaxedText.ofText?_text hadmitted, hinstant]

theorem render_inj {t t' : Instant} (h : Readable t) (h' : Readable t') :
    t.render = t'.render ↔ t = t' := by
  refine ⟨fun heq => ?_, congrArg render⟩
  have hread := ofText?_render h
  rw [heq, ofText?_render h'] at hread
  exact (Option.some.inj hread).symm

end Instant
end PanelSource
