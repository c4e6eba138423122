import PanelSource.Panel.Request
import PanelSource.Proofs.Instant.Rendered
import PanelSource.Proofs.Json.Rereading

/-! # Saved ranges

A range that was read from JSON is read again, with the same ends, from the JSON that is written of
it, whatever blanks, zones and digits its texts had. -/
namespace PanelSource

namespace RelaxedText

/-- Nanoseconds since 1970, rounded down. -/
theorem floor_seconds (w : RelaxedText) : ⌊w.seconds * 10 ^ 9⌋ =
    w.wholeSeconds * 1000000000 + ⌊InstantText.fractionValue w.fraction * 10 ^ 9⌋₊ := by
  have hnonneg := (InstantText.fractionValue_mem w.fraction).1
  have hsplit : w.seconds * 10 ^ 9 = ((w.wholeSeconds * 1000000000 : ℤ) : ℚ) +
      InstantText.fractionValue w.fraction * 10 ^ 9 := by
    rw [seconds]
    push_cast
    ring
  rw [hsplit, Int.floor_intCast_add, Int.natCast_floor_eq_floor (by positivity)]

/-- Two texts say one instant when they agree to the nanosecond, a leap second told apart from the
second behind it. -/
theorem instant_eq_iff (w w' : RelaxedText) : w.instant = w'.instant ↔
    (w.leap ↔ w'.leap) ∧ ⌊w.seconds * 10 ^ 9⌋ = ⌊w'.seconds * 10 ^ 9⌋ := by
  have hlt := w.floor_fraction_lt
  have hlt' := w'.floor_fraction_lt
  rw [floor_seconds, floor_seconds, instant, instant, Instant.mk.injEq, leap, leap]
  split <;> split <;> omega

end RelaxedText

namespace TimeRange
open Reader

def form : shape.Form where
  name
    | .start => "from"
    | .stop => "to"
  write _ := fun t : Instant => .text t.render
  value r
    | .start => r.start
    | .stop => r.stop
  named f := by cases f <;> rfl
  nodup_fields := by decide
  mem_fields f := by cases f <;> decide
  build?_eq_some_iff values r := by
    constructor
    · intro h f
      iterate 2 obtain ⟨_, _, h⟩ := Option.bind_eq_some_iff.mp h
      cases h
      cases f <;> assumption
    · intro h
      rw [funext h]
      rfl

theorem rereads : Rereads shape.reader toJson := by
  have hread : ∀ s t, Instant.ofText? s = some t → Instant.ofText? t.render = some t :=
    fun _ _ h => Instant.ofText?_render (Instant.readable_of_ofText? h)
  exact form.rereads (fun _ => rereads_textWith hread) nofun nofun

/-- A range that was read is read again, with both ends, from what is written of it, so it bounds
every description as before. And instants are written in one form: of all texts that can be read,
two are written alike exactly when they say one instant, whatever else they differ in. -/
theorem saved_range :
    (∀ o r, shape.reader o = .ok r → ∃ r', shape.reader (Outline.ofJson r.toJson) = .ok r' ∧
      r'.start = r.start ∧ r'.stop = r.stop ∧
      ∀ defaults (d : Description), d.prepare defaults (some r') = d.prepare defaults (some r)) ∧
    (∀ s t, Instant.ofText? s = some t → ∃ w : RelaxedText, w.Admitted ∧ w.text = s) ∧
    ∀ w w' : RelaxedText, w.Admitted → w'.Admitted → ∃ t t',
      Instant.ofText? w.text = some t ∧ Instant.ofText? w'.text = some t' ∧
      (t.render = t'.render ↔
        (w.leap ↔ w'.leap) ∧ ⌊w.seconds * 10 ^ 9⌋ = ⌊w'.seconds * 10 ^ 9⌋) := by
  refine ⟨?_, ?_, ?_⟩
  · intro o r h
    exact ⟨r, rereads o r h, rfl, rfl, fun _ _ => rfl⟩
  · intro s t h
    obtain ⟨w, htext, hadmitted, -⟩ := Instant.exists_relaxedText h
    exact ⟨w, hadmitted, htext⟩
  · intro w w' h h'
    have hread := RelaxedText.ofText?_text h
    have hread' := RelaxedText.ofText?_text h'
    refine ⟨w.instant, w'.instant, hread, hread', ?_⟩
    rw [Instant.render_inj (RelaxedText.readable h) (RelaxedText.readable h'),
      RelaxedText.instant_eq_iff]

def newYear : YearText :=
  @YearText.signed false 5 ⟨['1', '2', '3', '4', '5'], rfl, by decide, by decide⟩

/-- A leap second on a clock half an hour behind UTC. -/
def spaced : RelaxedText where
  gap _ := ⟨[' '], rfl⟩
  year := newYear
  month := ⟨['1'], rfl, by decide, by decide⟩
  day := ⟨['1'], rfl, by decide, by decide⟩
  date := ⟨12345, 1, 1⟩
  isDate := rfl
  mark := 't'
  isMark := .inr (.inl rfl)
  hour := ⟨['0'], rfl, by decide, by decide⟩
  hour_lt := by decide
  minute := ⟨['2', '9'], rfl, by decide, by decide⟩
  minute_lt := by decide
  second := ⟨['6', '0'], rfl, by decide, by decide⟩
  second_le := by decide
  fraction := InstantText.digitsOf ['2', '5', '0', '0']
  zone := .clock .minus 0 [] rfl 30

def unspaced : RelaxedText where
  gap _ := .none
  year := newYear
  month := ⟨['0', '1'], rfl, by decide, by decide⟩
  day := ⟨['0', '1'], rfl, by decide, by decide⟩
  date := ⟨12345, 1, 1⟩
  isDate := rfl
  mark := 'T'
  isMark := RelaxedText.isMark_written
  hour := ⟨['0', '0'], rfl, by decide, by decide⟩
  hour_lt := by decide
  minute := ⟨['5', '9'], rfl, by decide, by decide⟩
  minute_lt := by decide
  second := ⟨['6', '0'], rfl, by decide, by decide⟩
  second_le := by decide
  fraction := InstantText.digitsOf ['2', '5']
  zone := .word true false true

def spacedJson : Json :=
  .object [("from", .text " +12345 - 1 - 1t 0 : 29 : 60.2500 −0030 "),
    ("to", .text "+12345-01-01T00:59:60.25uTc")]

def leapSecond : Instant := ⟨327403385999, 1250000000⟩

theorem saved_range_spaced :
    shape.reader (Outline.ofJson spacedJson) = .ok ⟨leapSecond, leapSecond⟩ ∧
      (∃ r', shape.reader (Outline.ofJson (toJson ⟨leapSecond, leapSecond⟩)) = .ok r' ∧
        r'.start = leapSecond ∧ r'.stop = leapSecond) ∧
      spaced.text = " +12345 - 1 - 1t 0 : 29 : 60.2500 −0030 " ∧
      unspaced.text = "+12345-01-01T00:59:60.25uTc" ∧
      leapSecond.render = "+12345-01-01T00:59:60.250Z" ∧
      ∃ t t', Instant.ofText? spaced.text = some t ∧ Instant.ofText? unspaced.text = some t' ∧
        t.render = t'.render := by
  have hread : shape.reader (Outline.ofJson spacedJson) = .ok ⟨leapSecond, leapSecond⟩ := rfl
  obtain ⟨r', hagain, hstart, hstop, -⟩ := saved_range.1 _ _ hread
  obtain ⟨t, t', ht, ht', hiff⟩ := saved_range.2.2 spaced unspaced ⟨rfl, rfl⟩ ⟨rfl, rfl⟩
  have hseconds : spaced.seconds = unspaced.seconds := by
    have hwhole : spaced.wholeSeconds = unspaced.wholeSeconds := rfl
    have hlong : InstantText.digitsOf ['2', '5', '0', '0'] = [2, 5, 0, 0] := rfl
    have hshort : InstantText.digitsOf ['2', '5'] = [2, 5] := rfl
    rw [RelaxedText.seconds, RelaxedText.seconds, hwhole]
    norm_num [spaced, unspaced, hlong, hshort, InstantText.fractionValue]
  refine ⟨hread, ⟨r', hagain, hstart, hstop⟩, rfl, rfl, rfl, t, t', ht, ht', hiff.mpr ?_⟩
  exact ⟨⟨fun _ => rfl, fun _ => rfl⟩, by rw [hseconds]⟩

end TimeRange
end PanelSource
