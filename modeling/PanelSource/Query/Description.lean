import PanelSource.Json.Basic

/-! # Query descriptions, and why a query has no answer -/
namespace PanelSource

/-- What a query description lacks. -/
inductive Shortcoming
  | blankTable
  | blankColumn
  | noSelectColumn
  | noMetric
  | noStatement
  | noResultMetric
  | metricWithoutKind (column : String)
  | metricWithoutColumn (kind : String)
  deriving DecidableEq, Repr

def Shortcoming.message : Shortcoming → String
  | blankTable => "table must not be empty"
  | blankColumn => "column must not be empty"
  | noSelectColumn => "select query needs at least one column"
  | noMetric => "aggregate query needs at least one metric aggregation"
  | noStatement => "sql query text is empty"
  | noResultMetric => "aggregate result needs at least one metric aggregation"
  | metricWithoutKind column => "metric aggregation on '" ++ column ++ "' has no type"
  | metricWithoutColumn kind => "metric aggregation '" ++ kind ++ "' has no column"

inductive QueryError
  | invalidDescription (what : Shortcoming)
  | missingColumn (name : String)
  | invalidTimestamp (row : Nat) (cell : Json)

def QueryError.message : QueryError → String
  | invalidDescription what => "Invalid query description: " ++ what.message
  | missingColumn name => "Missing column in result: " ++ name
  | invalidTimestamp row cell =>
    "Invalid timestamp at row " ++ Text.natText row ++ ": " ++ cell.render

/-- Functions the editor knows, and any other function by its name. -/
inductive Aggregation
  | count
  | avg
  | sum
  | min
  | max
  | other (name : String)
  deriving DecidableEq, Repr

namespace Aggregation

def name : Aggregation → String
  | count => "count"
  | avg => "avg"
  | sum => "sum"
  | min => "min"
  | max => "max"
  | other name => name

/-- Known functions are found in any case. No character outside ASCII has one of their letters as
its lower case. -/
def ofName (s : String) : Aggregation :=
  match Text.lowerAscii s with
  | "count" => count
  | "avg" => avg
  | "sum" => sum
  | "min" => min
  | "max" => max
  | _ => other s

end Aggregation

/-- One requested aggregation; it gives one series in each group. -/
structure Metric where
  kind : Aggregation
  column : String
  deriving DecidableEq, Repr

namespace Metric

/-- The function applied to the column; it is also the label of the series. -/
def expression (m : Metric) : String := m.kind.name ++ "(" ++ m.column ++ ")"

/-- An identifier in double quotes, where a double quote is written twice. -/
def quoteIdentifier (s : String) : String :=
  String.ofList ('"' :: (s.toList.flatMap (fun c => if c = '"' then ['"', '"'] else [c]) ++ ['"']))

/-- The expression under itself as its alias, so that the result column has this name. -/
def selectItem (m : Metric) : String :=
  m.expression ++ " AS " ++ quoteIdentifier m.expression

def validate (m : Metric) : Except QueryError Unit :=
  if Text.blank m.kind.name then .error (.invalidDescription (.metricWithoutKind m.column))
  else if Text.blank m.column then
    .error (.invalidDescription (.metricWithoutColumn m.kind.name))
  else .ok ()

end Metric

/-- What kind of statement a description asks for. -/
inductive Mode
  | aggregate
  | select
  | sql
  deriving DecidableEq, Repr

inductive Order
  | ascending
  | descending
  deriving DecidableEq, Repr

/-- How a time column holds its instants: as integer milliseconds or as a temporal type. -/
inductive TimeFormat
  | epochMs
  | timestamp
  deriving DecidableEq, Repr

/-- What a clause compares with. -/
inductive Operand
  | number (x : Number)
  | text (s : String)
  deriving DecidableEq

/-- A comparison; the condition links it to the clauses before it. -/
structure Clause where
  condition : String := ""
  left : String
  operator : String
  right : Operand := .text ""
  deriving DecidableEq

/-- A query as a user composes it. Bounds are milliseconds, both exclusive. -/
structure Description where
  mode : Mode := .aggregate
  query : Option String := none
  schema : Option String := none
  table : String := ""
  selectColumns : List String := []
  metrics : List Metric := []
  groupBy : List String := []
  clauses : List Clause := []
  orderBy : Option String := none
  order : Option Order := none
  timeColumn : Option String := none
  groupInterval : Option String := none
  timeFormat : Option TimeFormat := none
  timeFrom : Option Int := none
  timeTo : Option Int := none
  aliasBy : Option String := none
  hide : Bool := false
  deriving DecidableEq

namespace Description

instance : Inhabited Description := ⟨{}⟩

def effectiveTimeColumn (d : Description) : String := d.timeColumn.getD "time"

/-- An empty schema counts as none. -/
def qualifiedTable (d : Description) : String :=
  match d.schema with
  | none => d.table
  | some schema => if schema = "" then d.table else schema ++ "." ++ d.table

/-- An empty interval counts as none. -/
def effectiveInterval (d : Description) : Option String := d.groupInterval.filter (· ≠ "")

/-- Buckets can only be made of temporal columns, so an interval makes the column one unless the
description says otherwise. -/
def effectiveTimeFormat (d : Description) : TimeFormat :=
  match d.timeFormat with
  | some format => format
  | none => if d.effectiveInterval.isSome then .timestamp else .epochMs

def bounded (d : Description) : Bool := d.timeFrom.isSome || d.timeTo.isSome

end Description
end PanelSource
