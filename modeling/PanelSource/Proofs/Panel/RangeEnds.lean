import PanelSource.Proofs.Instant.Grammars
import PanelSource.Proofs.Json.RecordReading
import PanelSource.Proofs.Panel.Window
import PanelSource.Proofs.Result.TypedTimes

/-! # Times of cells as ends of a range

A text that is read as the time of a cell can be an end of a dashboard's window too, and bounds the
targets there by the milliseconds it has in a cell. -/
namespace PanelSource
open RecordShape

namespace TimeRange

/-- A range whose ends are given by texts. -/
def textsJson (start stop : String) : Json :=
  .object [("from", .text start), ("to", .text stop)]

theorem reader_textsJson {start stop : String} {t u : Instant}
    (hstart : Instant.ofText? start = some t) (hstop : Instant.ofText? stop = some u) :
    shape.reader (Outline.ofJson (textsJson start stop)) = .ok ⟨t, u⟩ := by
  have hread : shape.read .start (.text (some start)) = .ok t :=
    Reader.textWith_eq_ok_iff.mpr ⟨start, rfl, hstart⟩
  have hread' : shape.read .stop (.text (some stop)) = .ok u :=
    Reader.textWith_eq_ok_iff.mpr ⟨stop, rfl, hstop⟩
  have hnamed : shape.readNamed [] [(some "from", .text (some start)),
      (some "to", .text (some stop))] = .ok [⟨.stop, u⟩, ⟨.start, t⟩] :=
    (readNamed_cons rfl rfl hread).trans (readNamed_cons rfl rfl hread')
  exact Outcome.bind_eq_ok_iff.mpr ⟨_, hnamed, rfl⟩

end TimeRange

namespace Request

def rangeJson (range targets : Json) : Json := .object [("range", range), ("targets", targets)]

theorem reader_rangeJson {range targets : Json} {r : TimeRange} {ds : List Description}
    (hrange : TimeRange.shape.reader (Outline.ofJson range) = .ok r)
    (htargets : Reader.list Description.shape.reader (Outline.ofJson targets) = .ok ds) :
    shape.reader (Outline.ofJson (rangeJson range targets)) = .ok ⟨ds, some r⟩ := by
  have hread : shape.read .range (Outline.ofJson range) = .ok (some r) := by
    have hne : Outline.ofJson range ≠ .null := fun heq => by
      rw [heq] at hrange
      cases hrange
    refine (Reader.optional_of_ne_null hne).trans ?_
    rw [hrange]
    rfl
  have hnamed : shape.readNamed [] [(some "range", Outline.ofJson range),
      (some "targets", Outline.ofJson targets)] = .ok [⟨.targets, ds⟩, ⟨.range, some r⟩] :=
    (readNamed_cons rfl rfl hread).trans (readNamed_cons rfl rfl htargets)
  exact Outcome.bind_eq_ok_iff.mpr ⟨_, hnamed, rfl⟩

end Request

/-- No text is an integer as well as an instant, so it does not matter which is tried first. And a
text that is a time of a cell by being an instant is read as the same instant at either end of a
request's range, and bounds all targets without own bounds by just the milliseconds of the cell. -/
theorem times_as_ends :
    (∀ s, (Text.int64? s = none ∨ Instant.ofStrictText? s = none) ∧
      (Json.text s).millis? =
        ((Instant.ofStrictText? s).map Instant.millis).or (Text.int64? s)) ∧
    ∀ s row ms, Text.int64? s = none → timestamp row (.text s) = .ok ms →
      ∃ t, Instant.ofStrictText? s = some t ∧ Instant.ofText? s = some t ∧
        ∀ other u targets ds, Instant.ofText? other = some u →
          Reader.list Description.shape.reader (Outline.ofJson targets) = .ok ds →
          Request.shape.reader (Outline.ofJson
            (Request.rangeJson (TimeRange.textsJson s other) targets)) = .ok ⟨ds, some ⟨t, u⟩⟩ ∧
          Request.shape.reader (Outline.ofJson
            (Request.rangeJson (TimeRange.textsJson other s) targets)) = .ok ⟨ds, some ⟨u, t⟩⟩ ∧
          ∀ d ∈ ds, d.bounded = false → ∀ defaults,
            (d.prepare defaults (some ⟨t, u⟩)).timeFrom = some ms ∧
            (d.prepare defaults (some ⟨u, t⟩)).timeTo = some ms := by
  constructor
  · intro s
    refine ⟨Text.int64?_or_ofStrictText? s, ?_⟩
    rw [Json.millis?]
    rcases Text.int64?_or_ofStrictText? s with h | h
    · rw [h, Option.none_or, Option.or_none]
    · rw [h, Option.map_none, Option.none_or, Option.or_none]
  · intro s row ms hinteger hcell
    rw [Layout.timestamp_eq_ok_iff, Json.millis?, hinteger, Option.none_or,
      Option.map_eq_some_iff] at hcell
    obtain ⟨t, hstrict, rfl⟩ := hcell
    have hread := Instant.ofText?_of_ofStrictText? hstrict
    refine ⟨t, hstrict, hread, fun other u targets ds hother htargets => ?_⟩
    refine ⟨Request.reader_rangeJson (TimeRange.reader_textsJson hread hother) htargets,
      Request.reader_rangeJson (TimeRange.reader_textsJson hother hread) htargets, ?_⟩
    intro d _ hbounded defaults
    rw [d.prepare_of_unbounded defaults _ hbounded, d.prepare_of_unbounded defaults _ hbounded]
    exact ⟨rfl, rfl⟩

/-- A leap second on a clock behind UTC, where the next year has begun. -/
def leapText : String := "2016-12-31t23:59:60.1234567899−00:01"

theorem times_as_ends_leapText :
    timestamp 0 (.text leapText) = .ok 1483228860123 ∧
      Request.shape.reader (Outline.ofJson (Request.rangeJson
          (TimeRange.textsJson leapText "2017-1-2 0:0:0utc") (.array [.object []]))) =
        .ok ⟨[{}], some ⟨⟨1483228859, 1123456789⟩, ⟨1483315200, 0⟩⟩⟩ ∧
      ∀ defaults, (Description.prepare defaults
          (some ⟨⟨1483228859, 1123456789⟩, ⟨1483315200, 0⟩⟩) {}).timeFrom =
        some 1483228860123 := by
  have hcell : timestamp 0 (.text leapText) = .ok 1483228860123 := rfl
  obtain ⟨t, hstrict, -, hends⟩ := times_as_ends.2 leapText 0 1483228860123 rfl hcell
  obtain rfl : (⟨1483228859, 1123456789⟩ : Instant) = t := Option.some.inj hstrict
  obtain ⟨hread, -, hbounds⟩ := hends "2017-1-2 0:0:0utc" ⟨1483315200, 0⟩ (.array [.object []]) [{}]
    rfl rfl
  exact ⟨hcell, hread, fun defaults => (hbounds {} List.mem_cons_self rfl defaults).1⟩

end PanelSource
