import PanelSource.Instant.Text
import PanelSource.Query.JsonForm

/-! # Panel requests and the defaults for their targets -/
namespace PanelSource

/-- The window of a dashboard; neither end belongs to it. -/
structure TimeRange where
  start : Instant
  stop : Instant
  deriving DecidableEq, Repr

namespace TimeRange

inductive Field
  | start
  | stop
  deriving DecidableEq

def Field.Value : Field → Type := fun _ => Instant

def shape : RecordShape Field Field.Value TimeRange where
  fields := [.start, .stop]
  named?
    | "from" => some .start
    | "to" => some .stop
    | _ => none
  read _ := Reader.textWith Instant.ofText?
  absent? _ := none
  omitted? _ := none
  build? get := do return ⟨← get .start, ← get .stop⟩

def toJson (r : TimeRange) : Json :=
  Json.ofFields [("from", .text r.start.render), ("to", .text r.stop.render)]

end TimeRange

/-- One refresh of a panel. -/
structure Request where
  targets : List Description := []
  range : Option TimeRange := none
  deriving DecidableEq

namespace Request

inductive Field
  | targets
  | range
  deriving DecidableEq

def Field.Value : Field → Type
  | .targets => List Description
  | .range => Option TimeRange

def Field.initial : (f : Field) → f.Value
  | .targets => []
  | .range => none

def shape : RecordShape Field Field.Value Request where
  fields := [.targets, .range]
  named?
    | "targets" => some .targets
    | "range" => some .range
    | _ => none
  read
    | .targets => Reader.list Description.shape.reader
    | .range => Reader.optional TimeRange.shape.reader
  absent? f := some f.initial
  omitted? f := some f.initial
  build? get := do return ⟨← get .targets, ← get .range⟩

end Request

/-- What a target without these fields gets, and how many rows a suggestion reads. -/
structure Defaults where
  schema : Option String := none
  timeColumn : String := "time"
  groupInterval : Option String := none
  timeFormat : Option TimeFormat := none
  valuesLimit : Nat := 10
  deriving DecidableEq, Repr

namespace Defaults

inductive Field
  | schema
  | timeColumn
  | groupInterval
  | timeFormat
  | valuesLimit
  deriving DecidableEq

def Field.Value : Field → Type
  | .schema => Option String
  | .timeColumn => String
  | .groupInterval => Option String
  | .timeFormat => Option TimeFormat
  | .valuesLimit => Nat

/-- Options need not be named, but in an array they have their places. -/
def shape : RecordShape Field Field.Value Defaults where
  fields := [.schema, .timeColumn, .groupInterval, .timeFormat, .valuesLimit]
  named?
    | "schema" => some .schema
    | "time_column" => some .timeColumn
    | "group_interval" => some .groupInterval
    | "time_format" => some .timeFormat
    | "values_limit" => some .valuesLimit
    | _ => none
  read
    | .schema => Reader.optional Reader.text
    | .timeColumn => Reader.text
    | .groupInterval => Reader.optional Reader.text
    | .timeFormat => Reader.optional (Reader.choice TimeFormat.ofWord?)
    | .valuesLimit => Reader.count
  absent?
    | .schema => some (none : Option String)
    | .groupInterval => some (none : Option String)
    | .timeFormat => some (none : Option TimeFormat)
    | .timeColumn => none
    | .valuesLimit => none
  omitted? _ := none
  build? get := do
    return ⟨← get .schema, ← get .timeColumn, ← get .groupInterval, ← get .timeFormat,
      ← get .valuesLimit⟩

end Defaults

namespace Description

/-- The bounds of a range, for a description that has no bound of its own. -/
def within (range : Option TimeRange) (d : Description) : Description :=
  match range with
  | none => d
  | some r =>
    if d.bounded then d
    else { d with timeFrom := some r.start.millis, timeTo := some r.stop.millis }

/-- Fields that are not set are filled in; an empty text counts as set. -/
def prepare (defaults : Defaults) (range : Option TimeRange) (d : Description) : Description :=
  within range { d with
    schema := d.schema.or defaults.schema
    timeColumn := d.timeColumn.or (some defaults.timeColumn)
    groupInterval := d.groupInterval.or defaults.groupInterval
    timeFormat := d.timeFormat.or defaults.timeFormat }

end Description
end PanelSource
