import PanelSource.Proofs.Instant.Grammars
import PanelSource.Proofs.Result.NumericTimes

/-! # Typed times and texts of times

A typed time is cut off toward zero to milliseconds, a text of the same instant is rounded down.
They are one millisecond apart before 1970 unless the instant is a whole millisecond. -/
namespace PanelSource

namespace InstantText

theorem int64?_text (w : InstantText) : Text.int64? w.text = none :=
  Text.int64?_eq_none w.ofStrictText?_text

theorem timestamp_text (w : InstantText) (row : ℕ) :
    timestamp row (.text w.text) = .ok ⌊w.seconds * 1000⌋ := by
  rw [Layout.timestamp_eq_ok_iff, Json.millis?, w.int64?_text, w.ofStrictText?_text,
    Option.none_or, Option.map_some, w.millis_floor]

theorem wholeSeconds_mem (w : InstantText) :
    -10 ^ 12 < w.wholeSeconds ∧ w.wholeSeconds < 10 ^ 12 := by
  have hzone := Instant.zoneSeconds_mem w.zone
  have hday := Date.toDay_bounds w.isDate
  have hfirst := Calendar.yearStart_le (x := 0) w.nonneg
  have hlast := Calendar.yearStart_le (x := w.date.year + 1) (y := 10000)
    (by have hshort := w.short; omega)
  have hends : Calendar.yearStart 0 = -719528 ∧ Calendar.yearStart 10000 = 2932897 := by decide
  rw [wholeSeconds]
  omega

theorem floor_millis_mem (w : InstantText) :
    -10 ^ 15 ≤ ⌊w.seconds * 1000⌋ ∧ ⌊w.seconds * 1000⌋ < 10 ^ 15 := by
  obtain ⟨hleast, hgreatest⟩ := w.wholeSeconds_mem
  obtain ⟨hnonneg, hless⟩ := fractionValue_mem w.fraction
  have hlower : (-10 ^ 12 : ℚ) ≤ w.wholeSeconds := by exact_mod_cast hleast.le
  have hupper : (w.wholeSeconds : ℚ) + 1 ≤ 10 ^ 12 := by exact_mod_cast hgreatest
  rw [Int.le_floor, Int.floor_lt, seconds]
  push_cast
  constructor <;> linarith

end InstantText

namespace TimeUnit

def perSecond : TimeUnit → ℕ
  | second => 1
  | millisecond => 1000
  | microsecond => 1000000
  | nanosecond => 1000000000

/-- Of the units finer than a millisecond. -/
def perMilli (unit : TimeUnit) : ℕ := unit.perSecond / 1000

theorem millis_eq {unit : TimeUnit} (h : unit = microsecond ∨ unit = nanosecond) (raw : ℤ) :
    unit.millis raw = raw.tdiv unit.perMilli ∧ 0 < unit.perMilli ∧
      unit.perSecond = 1000 * unit.perMilli := by
  rcases h with rfl | rfl <;> exact ⟨rfl, by decide, by decide⟩

/-- What is cut off is rounded down from 1970 on, and rounded up before. -/
theorem millis_eq_add {unit : TimeUnit} (h : unit = microsecond ∨ unit = nanosecond) (raw : ℤ) :
    unit.millis raw =
      raw / unit.perMilli + if 0 ≤ raw ∨ (unit.perMilli : ℤ) ∣ raw then 0 else 1 := by
  obtain ⟨hmillis, hpos, -⟩ := millis_eq h raw
  rw [hmillis, Int.tdiv_eq_ediv, Int.sign_eq_one_of_pos (by exact_mod_cast hpos)]

end TimeUnit

theorem InstantText.exists_seconds_eq {unit : TimeUnit}
    (hunit : unit = .microsecond ∨ unit = .nanosecond) (raw : ℤ) (zone : ZoneText)
    (hnonneg : 0 ≤ yearIn zone (raw / unit.perSecond))
    (hshort : yearIn zone (raw / unit.perSecond) ≤ 9999) :
    ∃ w : InstantText, w.zone = zone ∧ w.seconds = raw / unit.perSecond := by
  obtain ⟨k, hk⟩ : ∃ k, unit.perSecond = 10 ^ k := by
    rcases hunit with rfl | rfl
    · exact ⟨6, rfl⟩
    · exact ⟨9, rfl⟩
  have hpos : (0 : ℤ) < unit.perSecond := by rw [hk]; positivity
  have hrest : ((raw % unit.perSecond).toNat : ℤ) = raw % unit.perSecond :=
    Int.toNat_of_nonneg (Int.emod_nonneg raw hpos.ne')
  have hdigits : (raw % unit.perSecond).toNat < 10 ^ k := by
    have hlt := Int.emod_lt_of_pos raw hpos
    rw [← hk]
    omega
  obtain ⟨w, hzone, hwhole, hfraction⟩ :=
    exists_text zone hnonneg hshort (lastDigits k (raw % unit.perSecond).toNat)
  have hsum : (raw : ℚ) = unit.perSecond * (raw / unit.perSecond : ℤ) +
      ((raw % unit.perSecond).toNat : ℕ) := by
    have hmod := Int.mul_ediv_add_emod raw unit.perSecond
    rw [← hrest] at hmod
    exact_mod_cast hmod.symm
  have hpos' : (unit.perSecond : ℚ) ≠ 0 := by exact_mod_cast hpos.ne'
  have hpower : (10 : ℚ) ^ k = unit.perSecond := by exact_mod_cast hk.symm
  refine ⟨w, hzone, ?_⟩
  rw [seconds, hwhole, hfraction, fractionValue_lastDigits k hdigits, hpower, hsum, add_div,
    mul_div_cancel_left₀ _ hpos']

theorem InstantText.floor_millis_eq {unit : TimeUnit}
    (hunit : unit = .microsecond ∨ unit = .nanosecond) {raw : ℤ} {w : InstantText}
    (hw : w.seconds = raw / unit.perSecond) : ⌊w.seconds * 1000⌋ = raw / unit.perMilli := by
  obtain ⟨-, hpos, hsecond⟩ := TimeUnit.millis_eq hunit raw
  have hpos' : (unit.perMilli : ℚ) ≠ 0 := by exact_mod_cast hpos.ne'
  have hquotient : w.seconds * 1000 = raw / (unit.perMilli : ℚ) := by
    rw [hw, hsecond]
    push_cast
    field_simp
  rw [hquotient, Rat.floor_intCast_div_natCast]

theorem Cell.overflows_timestamp (unit : TimeUnit) (raw : ℤ) :
    (timestamp unit raw).overflows = !Text.fitsInt64 (unit.millis raw) := by
  rw [overflows, TimeUnit.millis?, Option.filter_some]
  cases Text.fitsInt64 (unit.millis raw) <;> rfl

/-- An instant has a text in every zone whose clock shows a year of four digits. A typed time is
what any text of its instant is read as, unless the instant lies before 1970 and between two
milliseconds: then it is one more. -/
theorem timestamp_typed_eq_text_iff {unit : TimeUnit}
    (hunit : unit = .microsecond ∨ unit = .nanosecond) (raw : ℤ) :
    (∀ zone, 0 ≤ InstantText.yearIn zone (raw / unit.perSecond) →
      InstantText.yearIn zone (raw / unit.perSecond) ≤ 9999 →
        ∃ w : InstantText, w.zone = zone ∧ w.seconds = raw / unit.perSecond) ∧
    ∀ (w : InstantText) (row : ℕ), w.seconds = raw / unit.perSecond →
      ∃ typed written : ℤ, (Cell.timestamp unit raw).toJson? = some (Json.int typed) ∧
        timestamp row (Json.int typed) = .ok typed ∧
        timestamp row (.text w.text) = .ok written ∧
        (typed = written ↔ 0 ≤ raw ∨ (unit.perMilli : ℤ) ∣ raw) ∧
        (typed ≠ written → typed = written + 1) := by
  refine ⟨fun zone => InstantText.exists_seconds_eq hunit raw zone, fun w row hw => ?_⟩
  have hmillis := TimeUnit.millis_eq_add hunit raw
  have hfloor := InstantText.floor_millis_eq hunit hw
  have hsize := w.floor_millis_mem
  have hfits : Text.fitsInt64 (unit.millis raw) = true := by
    rw [hfloor] at hsize
    rw [Text.fitsInt64_iff, hmillis]
    split <;> omega
  have htyped : (Cell.timestamp unit raw).overflows = false := by
    rw [Cell.overflows_timestamp, hfits, Bool.not_true]
  refine ⟨unit.millis raw, raw / unit.perMilli, Cell.toJson?_of_fit htyped,
    Layout.timestamp_eq_ok_iff.mpr (if_pos hfits), ?_, ?_, ?_⟩
  · rw [w.timestamp_text, hfloor]
  · rw [hmillis]
    split <;> simp_all
  · rw [hmillis]
    split <;> simp

/-- A millisecond and a half before 1970, on a clock of five hours and a half ahead. -/
def InstantText.aheadOfUtc : InstantText where
  date := ⟨1970, 1, 1⟩
  isDate := by decide
  nonneg := by decide
  short := by decide
  mark := 'T'
  isMark := .inl rfl
  hour := ⟨5, by decide⟩
  minute := ⟨29, by decide⟩
  second := ⟨59, by decide⟩
  fraction := lastDigits 4 9985
  zone := .ahead ⟨5, by decide⟩ ⟨30, by decide⟩

theorem timestamp_typed_eq_text_iff_aheadOfUtc :
    (∃ w : InstantText, w.zone = .behind ⟨23, by decide⟩ ⟨59, by decide⟩ ∧
      w.seconds = (-1500 : ℤ) / TimeUnit.microsecond.perSecond) ∧
    InstantText.aheadOfUtc.text = "1970-01-01T05:29:59.9985+05:30" ∧
      InstantText.aheadOfUtc.seconds = (-1500 : ℤ) / TimeUnit.microsecond.perSecond ∧
      ∃ typed written : ℤ, (Cell.timestamp .microsecond (-1500)).toJson? = some (Json.int typed) ∧
        timestamp 0 (.text "1970-01-01T05:29:59.9985+05:30") = .ok written ∧
        typed = written + 1 := by
  have htext : InstantText.aheadOfUtc.text = "1970-01-01T05:29:59.9985+05:30" := by decide
  have hseconds : InstantText.aheadOfUtc.seconds =
      (-1500 : ℤ) / TimeUnit.microsecond.perSecond := by
    have hwhole : InstantText.aheadOfUtc.wholeSeconds = -1 := by decide
    have hfraction := InstantText.fractionValue_lastDigits 4 (n := 9985) (by decide)
    rw [InstantText.seconds, hwhole, InstantText.aheadOfUtc, hfraction]
    norm_num [TimeUnit.perSecond]
  obtain ⟨hwritten, hread⟩ := @timestamp_typed_eq_text_iff .microsecond (.inl rfl) (-1500)
  obtain ⟨typed, written, htyped, -, hwrittenMillis, hiff, hapart⟩ := hread _ 0 hseconds
  rw [htext] at hwrittenMillis
  exact ⟨hwritten _ (by decide) (by decide), htext, hseconds, typed, written, htyped,
    hwrittenMillis, hapart (mt hiff.mp (by decide))⟩

/-- The last microsecond before 1970. -/
def InstantText.lastMicrosecond : InstantText where
  date := ⟨1969, 12, 31⟩
  isDate := by decide
  nonneg := by decide
  short := by decide
  mark := 'T'
  isMark := .inl rfl
  hour := ⟨23, by decide⟩
  minute := ⟨59, by decide⟩
  second := ⟨59, by decide⟩
  fraction := lastDigits 6 999999
  zone := .utc false

theorem lastMicrosecond_apart :
    InstantText.lastMicrosecond.text = "1969-12-31T23:59:59.999999Z" ∧
      InstantText.lastMicrosecond.seconds = (-1 : ℤ) / TimeUnit.microsecond.perSecond ∧
      (Cell.timestamp .microsecond (-1)).toJson? = some (Json.int 0) ∧
      timestamp 0 (Json.int 0) = .ok 0 ∧
      timestamp 0 (.text "1969-12-31T23:59:59.999999Z") = .ok (-1) := by
  have hwhole : InstantText.lastMicrosecond.wholeSeconds = -1 := by decide
  have hfraction := InstantText.fractionValue_lastDigits 6 (n := 999999) (by decide)
  have hseconds : InstantText.lastMicrosecond.seconds =
      (-1 : ℤ) / TimeUnit.microsecond.perSecond := by
    rw [InstantText.seconds, hwhole, InstantText.lastMicrosecond, hfraction]
    norm_num [TimeUnit.perSecond]
  exact ⟨by decide, hseconds, rfl, rfl, rfl⟩

end PanelSource
