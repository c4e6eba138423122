import PanelSource.Json.Record
import PanelSource.Query.Description

/-! # Descriptions as JSON -/
namespace PanelSource

namespace Mode

def word : Mode → String
  | aggregate => "aggregate"
  | select => "select"
  | sql => "sql"

def ofWord? : String → Option Mode
  | "aggregate" => some aggregate
  | "select" => some select
  | "sql" => some sql
  | _ => none

theorem ofWord?_word (m : Mode) : ofWord? m.word = some m := by cases m <;> rfl

end Mode

namespace Order

def word : Order → String
  | ascending => "ASC"
  | descending => "DESC"

def ofWord? : String → Option Order
  | "ASC" => some ascending
  | "DESC" => some descending
  | _ => none

theorem ofWord?_word (o : Order) : ofWord? o.word = some o := by cases o <;> rfl

end Order

namespace TimeFormat

def word : TimeFormat → String
  | epochMs => "epoch_ms"
  | timestamp => "timestamp"

def ofWord? : String → Option TimeFormat
  | "epoch_ms" => some epochMs
  | "timestamp" => some timestamp
  | _ => none

theorem ofWord?_word (f : TimeFormat) : ofWord? f.word = some f := by cases f <;> rfl

end TimeFormat

namespace Metric

inductive Field
  | kind
  | column
  deriving DecidableEq

def Field.Value : Field → Type
  | .kind => Aggregation
  | .column => String

def shape : RecordShape Field Field.Value Metric where
  fields := [.kind, .column]
  named?
    | "type" => some .kind
    | "column" => some .column
    | _ => none
  read
    | .kind => fun x => (Reader.text x).map Aggregation.ofName
    | .column => Reader.text
  absent? _ := none
  omitted? _ := none
  build? get := do return ⟨← get .kind, ← get .column⟩

def toJson (m : Metric) : Json :=
  Json.ofFields [("type", .text m.kind.name), ("column", .text m.column)]

end Metric

namespace Operand

/-- A value is read whole before it is looked at. -/
def reader : Reader Operand := fun x => do
  match ← x.toJson with
  | .number n => return .number n
  | .text s => return .text s
  | _ => .error .shape

def toJson : Operand → Json
  | .number x => .number x
  | .text s => .text s

end Operand

namespace Clause

inductive Field
  | condition
  | left
  | operator
  | right
  deriving DecidableEq

def Field.Value : Field → Type
  | .right => Operand
  | _ => String

def shape : RecordShape Field Field.Value Clause where
  fields := [.condition, .left, .operator, .right]
  named?
    | "condition" => some .condition
    | "left" => some .left
    | "key" => some .left
    | "operator" => some .operator
    | "right" => some .right
    | "value" => some .right
    | _ => none
  read
    | .condition => Reader.text
    | .left => Reader.text
    | .operator => Reader.text
    | .right => Operand.reader
  absent?
    | .condition => some ""
    | .right => some (Operand.text "")
    | .left => none
    | .operator => none
  omitted?
    | .condition => some ""
    | .right => some (Operand.text "")
    | .left => none
    | .operator => none
  build? get := do return ⟨← get .condition, ← get .left, ← get .operator, ← get .right⟩

def toJson (c : Clause) : Json :=
  Json.ofFields [("condition", .text c.condition), ("left", .text c.left),
    ("operator", .text c.operator), ("right", c.right.toJson)]

end Clause

namespace Description

inductive Field
  | mode
  | query
  | schema
  | table
  | selectColumns
  | metrics
  | groupBy
  | clauses
  | orderBy
  | order
  | timeColumn
  | groupInterval
  | timeFormat
  | timeFrom
  | timeTo
  | aliasBy
  | hide
  deriving DecidableEq

namespace Field

def all : List Field :=
  [mode, query, schema, table, selectColumns, metrics, groupBy, clauses, orderBy, order, timeColumn,
    groupInterval, timeFormat, timeFrom, timeTo, aliasBy, hide]

def name : Field → String
  | mode => "mode"
  | query => "query"
  | schema => "schema"
  | table => "table"
  | selectColumns => "selectColumns"
  | metrics => "metricAggs"
  | groupBy => "groupByColumns"
  | clauses => "whereClauses"
  | orderBy => "orderBy"
  | order => "orderType"
  | timeColumn => "timeColumn"
  | groupInterval => "groupInterval"
  | timeFormat => "timeFormat"
  | timeFrom => "timeFrom"
  | timeTo => "timeTo"
  | aliasBy => "aliasBy"
  | hide => "hide"

def ofName? (s : String) : Option Field := all.find? (fun f => f.name == s)

def Value : Field → Type
  | mode => Mode
  | table => String
  | selectColumns | groupBy => List String
  | metrics => List Metric
  | clauses => List Clause
  | order => Option Order
  | timeFormat => Option TimeFormat
  | timeFrom | timeTo => Option Int
  | hide => Bool
  | query | schema | orderBy | timeColumn | groupInterval | aliasBy => Option String

def value (d : Description) : (f : Field) → f.Value
  | mode => d.mode
  | query => d.query
  | schema => d.schema
  | table => d.table
  | selectColumns => d.selectColumns
  | metrics => d.metrics
  | groupBy => d.groupBy
  | clauses => d.clauses
  | orderBy => d.orderBy
  | order => d.order
  | timeColumn => d.timeColumn
  | groupInterval => d.groupInterval
  | timeFormat => d.timeFormat
  | timeFrom => d.timeFrom
  | timeTo => d.timeTo
  | aliasBy => d.aliasBy
  | hide => d.hide

def reader : (f : Field) → Reader f.Value
  | mode => Reader.choice Mode.ofWord?
  | query => Reader.optional Reader.text
  | schema => Reader.optional Reader.text
  | table => Reader.text
  | selectColumns => Reader.list Reader.text
  | metrics => Reader.list Metric.shape.reader
  | groupBy => Reader.list Reader.text
  | clauses => Reader.list Clause.shape.reader
  | orderBy => Reader.optional Reader.text
  | order => Reader.optional (Reader.choice Order.ofWord?)
  | timeColumn => Reader.optional Reader.text
  | groupInterval => Reader.optional Reader.text
  | timeFormat => Reader.optional (Reader.choice TimeFormat.ofWord?)
  | timeFrom => Reader.optional Reader.int64
  | timeTo => Reader.optional Reader.int64
  | aliasBy => Reader.optional Reader.text
  | hide => Reader.bool

def toJson : (f : Field) → f.Value → Json
  | mode => fun m => .text m.word
  | table => .text
  | selectColumns => Json.texts
  | groupBy => Json.texts
  | metrics => fun ms => .array (ms.map Metric.toJson)
  | clauses => fun cs => .array (cs.map Clause.toJson)
  | order => Json.ofOption (fun o => .text o.word)
  | timeFormat => Json.ofOption (fun f => .text f.word)
  | timeFrom => Json.ofOption Json.int
  | timeTo => Json.ofOption Json.int
  | hide => .bool
  | query => Json.ofOption .text
  | schema => Json.ofOption .text
  | orderBy => Json.ofOption .text
  | timeColumn => Json.ofOption .text
  | groupInterval => Json.ofOption .text
  | aliasBy => Json.ofOption .text

end Field

/-- Every field has a value where it is not given, that of the empty description. -/
def shape : RecordShape Field Field.Value Description where
  fields := Field.all
  named? := Field.ofName?
  read := Field.reader
  absent? f := some (f.value {})
  omitted? f := some (f.value {})
  build? get := do
    return {
      mode := ← get .mode
      query := ← get .query
      schema := ← get .schema
      table := ← get .table
      selectColumns := ← get .selectColumns
      metrics := ← get .metrics
      groupBy := ← get .groupBy
      clauses := ← get .clauses
      orderBy := ← get .orderBy
      order := ← get .order
      timeColumn := ← get .timeColumn
      groupInterval := ← get .groupInterval
      timeFormat := ← get .timeFormat
      timeFrom := ← get .timeFrom
      timeTo := ← get .timeTo
      aliasBy := ← get .aliasBy
      hide := ← get .hide }

def toJson (d : Description) : Json :=
  Json.ofFields (Field.all.map fun f => (f.name, f.toJson (f.value d)))

end Description
end PanelSource
