import PanelSource.Query.Description
import PanelSource.Result.Table

/-! # From a table to series

Rows are grouped by the texts of their grouping cells. Groups come in the order of their first rows,
the metrics of a group in the order of the layout, and rows keep their order in each series. -/
namespace PanelSource

structure MetricColumn where
  label : String
  position : Nat
  deriving DecidableEq, Repr

/-- Where a table has the time, the metrics and the grouping columns. -/
structure Layout where
  time : Nat
  metrics : List MetricColumn
  groups : List Nat
  deriving DecidableEq, Repr

namespace Layout

def column (t : Table) (name : String) : Except QueryError Nat :=
  match t.position? name with
  | some i => .ok i
  | none => .error (.missingColumn name)

def timeName (d : Description) : String :=
  match d.mode with
  | .aggregate => "time"
  | .select | .sql => d.effectiveTimeColumn

def columns (t : Table) : List String → Except QueryError (List Nat)
  | [] => .ok []
  | name :: rest => do return (← column t name) :: (← columns t rest)

/-- Each label is the name of its own column. -/
def labelled (t : Table) (labels : List String) : Except QueryError (List MetricColumn) := do
  return (labels.zip (← columns t labels)).map fun (label, i) => ⟨label, i⟩

/-- Every column that is neither the time nor a grouping column. -/
def remaining (t : Table) (time : Nat) (groups : List Nat) : List MetricColumn :=
  (t.cols.zipIdx.filter fun (_, i) => i != time && !groups.contains i).map
    fun (label, i) => ⟨label, i⟩

def metricColumns (d : Description) (t : Table) (time : Nat) (groups : List Nat) :
    Except QueryError (List MetricColumn) :=
  match d.mode with
  | .aggregate =>
    if d.metrics = [] then .error (.invalidDescription .noResultMetric)
    else labelled t (d.metrics.map Metric.expression)
  | .select | .sql =>
    if d.metrics = [] then .ok (remaining t time groups)
    else labelled t (d.metrics.map Metric.column)

def resolve (d : Description) (t : Table) : Except QueryError Layout := do
  let time ← column t (timeName d)
  let groups ← columns t d.groupBy
  let metrics ← metricColumns d t time groups
  return ⟨time, metrics, groups⟩

end Layout

/-- A grouping cell as part of a key: null is empty, texts stand as they are. -/
def keyPart : Json → String
  | .text s => s
  | .null => ""
  | other => other.render

namespace Layout

def key (l : Layout) (row : List Json) : GroupKey :=
  l.groups.map fun i => keyPart (Table.cell row i)

def target (l : Layout) (key : GroupKey) (label : String) : String :=
  if l.groups = [] then label else " ".intercalate key ++ ": " ++ label

/-- The time cells of rows numbered from `row` on. -/
def timestamps (l : Layout) : Nat → List (List Json) → Except QueryError (List Int)
  | _, [] => .ok []
  | row, r :: rest => do
    return (← timestamp row (Table.cell r l.time)) :: (← timestamps l (row + 1) rest)

/-- The series of one group and one metric, from the rows of the group. -/
def series (l : Layout) (stamped : List (List Json × Int)) (key : GroupKey) (rows : List Nat)
    (m : MetricColumn) : Series where
  target := l.target key m.label
  datapoints := rows.filterMap fun r => (stamped[r]?).map fun (row, ms) =>
    ⟨Table.cell row m.position, ms⟩

def grouped (l : Layout) (stamped : List (List Json × Int)) : Groups :=
  .ofKeys (stamped.map fun (row, _) => l.key row)

def fanOut (l : Layout) (stamped : List (List Json × Int)) : List Series :=
  (l.grouped stamped).flatMap fun (key, rows) =>
    l.metrics.map fun m => l.series stamped key rows m

end Layout

def transform (d : Description) (t : Table) : Except QueryError (List Series) :=
  if t.rows = [] then .ok []
  else do
    let layout ← Layout.resolve d t
    let stamps ← layout.timestamps 0 t.rows
    return layout.fanOut (t.rows.zip stamps)

end PanelSource
