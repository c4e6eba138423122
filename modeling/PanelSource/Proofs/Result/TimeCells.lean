import PanelSource.Json.Scanner
import PanelSource.Proofs.Instant.StrictText
import PanelSource.Proofs.Result.NumericTimes

/-! # Cells that tell a time

A number tells a time, and so does a text of an integer of 64 bits or a text of the strict grammar.
All other cells are refused. -/
namespace PanelSource
namespace Json

/-- An integer in JSON has 64 bits, with a sign or without one. -/
def Sized (v : Json) : Prop := ∀ n, v = int n → -2 ^ 63 ≤ n ∧ n < 2 ^ 64

/-- The milliseconds since 1970 that a value tells. A number beyond 64 bits tells the end of their
range. -/
inductive TellsTime : Json → ℤ → Prop
  | integer (n : ℤ) : TellsTime (int n) (clampInt64 n)
  | double (x : Double) : TellsTime (double x) (clampInt64 (towardZero x.value))
  | digits {s : String} {n : ℤ} (h : Text.SignedDigits s.toList n)
      (hfits : Text.fitsInt64 n = true) : TellsTime (.text s) n
  | strict {s : String} (w : StrictText) (hw : w.text = s) : TellsTime (.text s) ⌊w.seconds * 1000⌋

variable {s : String} {v : Json} {ms : ℤ}

theorem millis?_text_eq_some_iff : (text s).millis? = some ms ↔
    Text.int64? s = some ms ∨ ∃ t, Instant.ofStrictText? s = some t ∧ t.millis = ms := by
  rw [millis?]
  rcases Text.int64?_or_ofStrictText? s with h | h <;> simp [h]

theorem millis?_text_iff_tellsTime : (text s).millis? = some ms ↔ (text s).TellsTime ms := by
  rw [millis?_text_eq_some_iff]
  constructor
  · rintro (hinteger | ⟨t, hstrict, rfl⟩)
    · obtain ⟨hdigits, hfits⟩ := Text.int64?_eq_some_iff.mp hinteger
      exact .digits hdigits hfits
    · obtain ⟨w, hw, rfl⟩ := StrictText.ofStrictText?_eq_some_iff.mp hstrict
      rw [w.millis_instant]
      exact .strict w hw
  · intro h
    cases h with
    | digits hdigits hfits => exact .inl (Text.int64?_eq_some_iff.mpr ⟨hdigits, hfits⟩)
    | strict w hw => exact .inr ⟨w.instant, hw ▸ w.ofStrictText?_text, w.millis_instant⟩

theorem millis?_iff_tellsTime (hv : v.Sized) : v.millis? = some ms ↔ v.TellsTime ms := by
  cases v with
  | number x =>
    cases x with
    | int n =>
      obtain ⟨hleast, hgreatest⟩ := hv n rfl
      have hread : (int n).millis? = some (clampInt64 n) := millis?_int (by omega)
      refine ⟨fun h => ?_, fun h => ?_⟩
      · obtain rfl : clampInt64 n = ms := Option.some.inj (hread.symm.trans h)
        exact .integer n
      · cases h
        exact hread
    | double x =>
      have hread := millis?_double x
      refine ⟨fun h => ?_, fun h => ?_⟩
      · obtain rfl : clampInt64 (towardZero x.value) = ms := Option.some.inj (hread.symm.trans h)
        exact .double x
      · cases h
        exact hread
  | text s => exact millis?_text_iff_tellsTime
  | null => exact ⟨nofun, nofun⟩
  | bool b => exact ⟨nofun, nofun⟩
  | array items => exact ⟨nofun, nofun⟩
  | object fields => exact ⟨nofun, nofun⟩

end Json

/-- A cell is read as the time that it tells, and one that tells none is refused with its row and
its JSON text. All texts of an integer are read like the integer. All texts of an instant are read
alike, and it has one in every zone whose clock shows a year of four digits. -/
theorem cells_tellTime (row : ℕ) :
    (∀ v : Json, v.Sized →
      (∀ ms, timestamp row v = .ok ms ↔ v.TellsTime ms) ∧
      ((∀ ms, ¬v.TellsTime ms) → ∃ e, timestamp row v = .error e ∧ e = .invalidTimestamp row v ∧
        e.message = "Invalid timestamp at row " ++ Text.natText row ++ ": " ++ v.render)) ∧
    (∀ n, Text.fitsInt64 n = true →
      timestamp row (.int n) = .ok n ∧
      (∀ s, Text.SignedDigits s.toList n → timestamp row (.text s) = .ok n) ∧
      ∀ plus zeros,
        timestamp row (.text (String.ofList (Text.spelled plus zeros n))) = .ok n) ∧
    ∀ w : StrictText,
      (∀ z, (∃ w' : StrictText, w'.zone = z ∧ w'.wholeSeconds = w.wholeSeconds ∧
        w'.seconds = w.seconds) ↔ 0 ≤ w.yearIn z ∧ w.yearIn z ≤ 9999) ∧
      ∀ w' : StrictText, w'.seconds = w.seconds →
        timestamp row (.text w'.text) = timestamp row (.text w.text) := by
  have hread {v : Json} {ms : ℤ} (hv : v.Sized) : timestamp row v = .ok ms ↔ v.TellsTime ms :=
    Layout.timestamp_eq_ok_iff.trans (Json.millis?_iff_tellsTime hv)
  have htext {s : String} {ms : ℤ} (h : (Json.text s).TellsTime ms) :
      timestamp row (.text s) = .ok ms := by
    have hsized : (Json.text s).Sized := nofun
    exact (hread hsized).mpr h
  refine ⟨fun v hv => ⟨fun ms => hread hv, fun hnone => ?_⟩, fun n hfits => ?_, fun w => ?_⟩
  · have hrefused : v.millis? = none := Option.eq_none_iff_forall_ne_some.mpr fun ms hms =>
      hnone ms ((Json.millis?_iff_tellsTime hv).mp hms)
    exact ⟨_, Layout.timestamp_eq_error_iff.mpr ⟨hrefused, rfl⟩, rfl, rfl⟩
  · have hdigits (s : String) (hs : Text.SignedDigits s.toList n) :
        timestamp row (.text s) = .ok n := htext (.digits hs hfits)
    refine ⟨Layout.timestamp_eq_ok_iff.mpr (if_pos hfits), hdigits, fun plus zeros => ?_⟩
    refine hdigits _ ?_
    rw [String.toList_ofList]
    exact Text.signedDigits_spelled plus zeros n
  · refine ⟨w.exists_inZone_iff, fun w' hseconds => ?_⟩
    rw [htext (.strict w' rfl), htext (.strict w rfl), hseconds]

/-- A leap second on the clock that is farthest behind. -/
def StrictText.leapSecond : StrictText where
  date := ⟨2016, 12, 31⟩
  isDate := by decide
  nonneg := by decide
  short := by decide
  mark := 'T'
  isMark := RelaxedText.isMark_written
  hour := Fin.last 23
  minute := Fin.last 59
  second := Fin.last 60
  fraction := InstantText.lastDigits 1 5
  zone := .clock .minus (Fin.last 23) (Fin.last 59)

theorem cells_tellTime_leapSecond :
    StrictText.leapSecond.text = "2016-12-31T23:59:60.5−23:59" ∧
      (∃ w : StrictText, w.zone = .letter false ∧
        w.wholeSeconds = StrictText.leapSecond.wholeSeconds ∧
        timestamp 3 (.text w.text) = timestamp 3 (.text "2016-12-31T23:59:60.5−23:59")) ∧
      timestamp 3 (.text "2016-12-31T23:59:60.5−23:59") = .ok 1483315140500 ∧
      timestamp 3 (.text "+007") = .ok 7 ∧
      timestamp 3 (.int 18446744073709551615) = .ok 9223372036854775807 ∧
      ∃ e, timestamp 3 (.bool true) = .error e ∧
        e.message = "Invalid timestamp at row 3: true" := by
  have htext : StrictText.leapSecond.text = "2016-12-31T23:59:60.5−23:59" := by decide
  obtain ⟨hread, hintegers, hinstants⟩ := cells_tellTime 3
  obtain ⟨hzones, hsame⟩ := hinstants StrictText.leapSecond
  obtain ⟨w, hzone, hwhole, hseconds⟩ := (hzones (.letter false)).mpr (by decide)
  obtain ⟨e, hrefused, -, hmessage⟩ := (hread (.bool true) nofun).2 nofun
  have hsized : (Json.int 18446744073709551615).Sized := by
    rintro _ ⟨⟩
    decide
  refine ⟨htext, ⟨w, hzone, hwhole, htext ▸ hsame w hseconds⟩, rfl, ?_, ?_, e, hrefused, hmessage⟩
  · exact (hintegers 7 (by decide)).2.2 true 2
  · exact ((hread _ hsized).1 _).mpr (.integer _)

end PanelSource
