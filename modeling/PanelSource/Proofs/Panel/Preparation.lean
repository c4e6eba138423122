import PanelSource.Panel.Request

/-! # Descriptions prepared once and for all

Defaults and a range fill in what a description leaves open. What is set stays, and once a range has
given the bounds no later one is taken. -/
namespace PanelSource.Description

/-- The fields that can be filled in. -/
def Field.fillable : List Field :=
  [.schema, .timeColumn, .groupInterval, .timeFormat, .timeFrom, .timeTo]

/-- What a description leaves open. Its bounds are open together, where it has neither. -/
inductive Open (d : Description) : Field → Prop
  | schema (h : d.schema = none) : Open d .schema
  | timeColumn (h : d.timeColumn = none) : Open d .timeColumn
  | groupInterval (h : d.groupInterval = none) : Open d .groupInterval
  | timeFormat (h : d.timeFormat = none) : Open d .timeFormat
  | timeFrom (hfrom : d.timeFrom = none) (hto : d.timeTo = none) : Open d .timeFrom
  | timeTo (hfrom : d.timeFrom = none) (hto : d.timeTo = none) : Open d .timeTo

/-- The defaults and a range as a description of their own. -/
def filling (defaults : Defaults) (range : Option TimeRange) : Description where
  schema := defaults.schema
  timeColumn := some defaults.timeColumn
  groupInterval := defaults.groupInterval
  timeFormat := defaults.timeFormat
  timeFrom := range.map fun r => r.start.millis
  timeTo := range.map fun r => r.stop.millis

variable {d : Description}

theorem bounded_eq_false_iff : d.bounded = false ↔ d.timeFrom = none ∧ d.timeTo = none := by
  simp [bounded]

theorem within_of_bounded (h : d.bounded = true) (range : Option TimeRange) :
    within range d = d := by
  cases range with
  | none => rfl
  | some r => exact if_pos h

theorem bounded_within_some (r : TimeRange) (d : Description) :
    (within (some r) d).bounded = true := by
  cases h : d.bounded with
  | true => rwa [within_of_bounded h]
  | false => rw [within, h]; rfl

/-- The defaults have no say on the bounds. -/
theorem prepare_none_within (defaults : Defaults) (range : Option TimeRange) (d : Description) :
    (within range d).prepare defaults none = within range (d.prepare defaults none) := by
  have hbounded : (d.prepare defaults none).bounded = d.bounded := rfl
  cases range with
  | none => rfl
  | some r =>
    rw [within, within, hbounded]
    cases d.bounded <;> rfl

theorem prepare_eq_within (defaults : Defaults) (range : Option TimeRange) (d : Description) :
    d.prepare defaults range = within range (d.prepare defaults none) := rfl

theorem prepare_none_prepare_none (defaults : Defaults) (d : Description) :
    (d.prepare defaults none).prepare defaults none = d.prepare defaults none := by
  simp only [prepare, within, Option.or_assoc, Option.or_self]

theorem prepare_after_none (defaults : Defaults) (range : Option TimeRange) (d : Description) :
    (d.prepare defaults none).prepare defaults range = d.prepare defaults range := by
  rw [prepare_eq_within, prepare_none_prepare_none, ← prepare_eq_within]

theorem prepare_after_some (defaults : Defaults) (r : TimeRange) (range : Option TimeRange)
    (d : Description) :
    (d.prepare defaults (some r)).prepare defaults range = d.prepare defaults (some r) := by
  have hbounded := bounded_within_some r (d.prepare defaults none)
  calc (d.prepare defaults (some r)).prepare defaults range
      = within range ((within (some r) (d.prepare defaults none)).prepare defaults none) := rfl
    _ = within range (within (some r) (d.prepare defaults none)) := by
        rw [prepare_none_within, prepare_none_prepare_none]
    _ = d.prepare defaults (some r) := within_of_bounded hbounded range

/-- A prepared description, field by field. -/
theorem prepare_eq (defaults : Defaults) (range : Option TimeRange) (d : Description) :
    d.prepare defaults range =
      { d with
        schema := d.schema.or defaults.schema
        timeColumn := d.timeColumn.or (some defaults.timeColumn)
        groupInterval := d.groupInterval.or defaults.groupInterval
        timeFormat := d.timeFormat.or defaults.timeFormat
        timeFrom := if d.bounded then d.timeFrom else range.map fun r => r.start.millis
        timeTo := if d.bounded then d.timeTo else range.map fun r => r.stop.millis } := by
  have hbounded : (d.prepare defaults none).bounded = d.bounded := rfl
  cases h : d.bounded with
  | true =>
    rw [prepare_eq_within, within_of_bounded (hbounded.trans h)]
    rfl
  | false =>
    obtain ⟨hfrom, hto⟩ := bounded_eq_false_iff.mp h
    cases range with
    | none => rw [prepare, within, hfrom, hto]; rfl
    | some r => rw [prepare_eq_within, within, hbounded, h]; rfl

variable {f : Field}

theorem value_prepare_of_open (h : d.Open f) (defaults : Defaults) (range : Option TimeRange) :
    f.value (d.prepare defaults range) = f.value (filling defaults range) := by
  rw [prepare_eq]
  cases h with
  | schema h | timeColumn h | groupInterval h | timeFormat h =>
    simp only [Field.value, filling, h, Option.none_or]
    rfl
  | timeFrom hfrom hto | timeTo hfrom hto =>
    simp only [bounded_eq_false_iff.mpr ⟨hfrom, hto⟩]
    rfl

theorem value_prepare_of_not_open (h : ¬ d.Open f) (defaults : Defaults)
    (range : Option TimeRange) : f.value (d.prepare defaults range) = f.value d := by
  have hkept {α : Type} {x y : Option α} (hx : x ≠ none) : x.or y = x :=
    Option.or_of_isSome (Option.isSome_iff_ne_none.mpr hx)
  have hbounded (hb : ¬(d.timeFrom = none ∧ d.timeTo = none)) : d.bounded = true :=
    eq_true_of_ne_false (mt bounded_eq_false_iff.mp hb)
  rw [prepare_eq]
  cases f with
  | schema => exact hkept fun hd => h (.schema hd)
  | timeColumn => exact hkept fun hd => h (.timeColumn hd)
  | groupInterval => exact hkept fun hd => h (.groupInterval hd)
  | timeFormat => exact hkept fun hd => h (.timeFormat hd)
  | timeFrom => exact if_pos (hbounded fun hd => h (.timeFrom hd.1 hd.2))
  | timeTo => exact if_pos (hbounded fun hd => h (.timeTo hd.1 hd.2))
  | _ => rfl

theorem Open.mem_fillable (h : d.Open f) : f ∈ Field.fillable := by
  cases h <;> decide

/-- An open field is as in the empty description. -/
theorem Open.value_eq (h : d.Open f) : f.value d = f.value {} := by
  cases h <;> assumption

/-- To prepare a description only fills in what it leaves open. An empty text leaves nothing open,
and one bound is enough to leave neither open. -/
theorem prepare_fills_open (defaults : Defaults) (d : Description) :
    (∀ range, (d.prepare defaults none).prepare defaults range = d.prepare defaults range) ∧
      (∀ first range, (d.prepare defaults (some first)).prepare defaults range =
        d.prepare defaults (some first)) ∧
      ∀ range,
        (∀ f ∉ Field.fillable, f.value (d.prepare defaults range) = f.value d) ∧
          (∀ f : Field, f.value d ≠ f.value {} →
            f.value (d.prepare defaults range) = f.value d) ∧
          (d.timeFrom ≠ none ∨ d.timeTo ≠ none →
            (d.prepare defaults range).timeFrom = d.timeFrom ∧
              (d.prepare defaults range).timeTo = d.timeTo) ∧
          ∀ f, d.Open f →
            f.value (d.prepare defaults range) = f.value (filling defaults range) := by
  refine ⟨fun range => prepare_after_none defaults range d,
    fun first range => prepare_after_some defaults first range d, fun range => ⟨?_, ?_, ?_, ?_⟩⟩
  · intro f hf
    exact value_prepare_of_not_open (fun hopen => hf hopen.mem_fillable) defaults range
  · intro f hset
    exact value_prepare_of_not_open (fun hopen => hset hopen.value_eq) defaults range
  · intro hbound
    have hfrom : ¬ d.Open .timeFrom := fun | .timeFrom hf ht => hbound.elim (· hf) (· ht)
    have hto : ¬ d.Open .timeTo := fun | .timeTo hf ht => hbound.elim (· hf) (· ht)
    exact ⟨value_prepare_of_not_open hfrom defaults range,
      value_prepare_of_not_open hto defaults range⟩
  · intro f hopen
    exact value_prepare_of_open hopen defaults range

/-- An empty schema and a single bound are set. -/
def openEnded : Description := { schema := some "", table := "metrics", timeFrom := some 5 }

theorem prepare_fills_open_openEnded :
    let defaults : Defaults := { schema := some "doc", groupInterval := some "minute" }
    let range : TimeRange := ⟨⟨1, 0⟩, ⟨2, 0⟩⟩
    (openEnded.prepare defaults (some range)).prepare defaults none =
        openEnded.prepare defaults (some range) ∧
      (openEnded.prepare defaults (some range)).schema = some "" ∧
      (openEnded.prepare defaults (some range)).table = "metrics" ∧
      (openEnded.prepare defaults (some range)).timeTo = none ∧
      (openEnded.prepare defaults (some range)).groupInterval = some "minute" := by
  intro defaults range
  obtain ⟨-, hagain, h⟩ := prepare_fills_open defaults openEnded
  obtain ⟨hkept, hset, hbounds, hopen⟩ := h (some range)
  exact ⟨hagain range none, hset .schema (Option.some_ne_none _), hkept .table (by decide),
    (hbounds (.inl (by decide))).2, hopen .groupInterval (.groupInterval rfl)⟩

end PanelSource.Description
