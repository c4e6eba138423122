import PanelSource.Query.Description

/-! # Statements compiled from descriptions

Names and texts stand in the statement as they were given; only the right side of a clause is put
in single quotes when it is a text. -/
namespace PanelSource

def Order.sql : Order → String
  | ascending => "ASC"
  | descending => "DESC"

def Operand.sql : Operand → String
  | .number x => x.render
  | .text s => "'" ++ s ++ "'"

def TimeFormat.instantSql : TimeFormat → Int → String
  | epochMs, ms => Text.intText ms
  | timestamp, ms => "epoch_ms(" ++ Text.intText ms ++ ")"

namespace Clause

def comparison (c : Clause) : String :=
  " " ++ c.left ++ " " ++ c.operator ++ " " ++ c.right.sql

/-- The comparison behind its condition, where it has one. -/
def linked (c : Clause) : String :=
  (if c.condition = "" then "" else " " ++ c.condition) ++ c.comparison

/-- The condition of the first clause has nothing to link to and is left out. -/
def listSql : List Clause → String
  | [] => ""
  | c :: rest => c.comparison ++ String.join (rest.map linked)

end Clause

namespace Description

def bucket (d : Description) : String :=
  match d.effectiveInterval with
  | some interval => "date_trunc('" ++ interval ++ "', " ++ d.effectiveTimeColumn ++ ")"
  | none => d.effectiveTimeColumn

def instantSql (d : Description) (ms : Int) : String := d.effectiveTimeFormat.instantSql ms

def lowerBound (d : Description) (ms : Int) : String :=
  d.effectiveTimeColumn ++ " > " ++ d.instantSql ms

def upperBound (d : Description) (ms : Int) : String :=
  d.effectiveTimeColumn ++ " < " ++ d.instantSql ms

def bounds (d : Description) : List String :=
  (d.timeFrom.map d.lowerBound).toList ++ (d.timeTo.map d.upperBound).toList

def filterSql (d : Description) : String :=
  (if d.clauses = [] then "" else " WHERE" ++ Clause.listSql d.clauses) ++
    (if d.bounded then
      (if d.clauses = [] then " WHERE " else " AND ") ++ " AND ".intercalate d.bounds
    else "")

def orderSql (d : Description) : String :=
  match d.orderBy.filter (· ≠ "") with
  | none => ""
  | some column =>
    " ORDER BY " ++ column ++ (match d.order with
      | none => ""
      | some order => " " ++ order.sql)

def requireTable (table : String) : Except QueryError Unit :=
  if Text.blank table then .error (.invalidDescription .blankTable) else .ok ()

def requireColumn (column : String) : Except QueryError Unit :=
  if Text.blank column then .error (.invalidDescription .blankColumn) else .ok ()

def compileSelect (d : Description) : Except QueryError String := do
  requireTable d.table
  if d.selectColumns = [] then .error (.invalidDescription .noSelectColumn)
  return "SELECT " ++ ",".intercalate d.selectColumns ++ " FROM " ++ d.qualifiedTable ++
    d.filterSql ++ d.orderSql

def validateMetrics : List Metric → Except QueryError Unit
  | [] => .ok ()
  | m :: ms => m.validate.bind fun _ => validateMetrics ms

/-- The bucket under the name `time`, the metrics, the grouping columns. -/
def selectItems (d : Description) : List String :=
  (d.bucket ++ " AS time") :: (d.metrics.map Metric.selectItem ++ d.groupBy)

/-- Groups repeat the bucket itself: its alias might be taken for a column of the table. -/
def compileAggregate (d : Description) : Except QueryError String := do
  requireTable d.table
  if d.metrics = [] then .error (.invalidDescription .noMetric)
  validateMetrics d.metrics
  return "SELECT " ++ ", ".intercalate d.selectItems ++ " FROM " ++ d.qualifiedTable ++
    d.filterSql ++ " GROUP BY " ++ ", ".intercalate (d.bucket :: d.groupBy) ++
    " ORDER BY time ASC"

def compileSql (d : Description) : Except QueryError String :=
  let statement := Text.trim (d.query.getD "")
  if statement = "" then .error (.invalidDescription .noStatement) else .ok statement

def compile (d : Description) : Except QueryError String :=
  match d.mode with
  | .aggregate => d.compileAggregate
  | .select => d.compileSelect
  | .sql => d.compileSql

end Description

namespace Statement

def tables : String := "SELECT table_name FROM information_schema.tables"

def columns (table : String) : Except QueryError String := do
  Description.requireTable table
  return "SELECT column_name FROM information_schema.columns WHERE table_name='" ++ table ++ "'"

/-- A limit of zero is none. -/
def values (table column : String) (limit : Option Nat) : Except QueryError String := do
  Description.requireTable table
  Description.requireColumn column
  return "SELECT " ++ column ++ " FROM " ++ table ++
    (match limit.filter (0 < ·) with
      | none => ""
      | some n => " LIMIT " ++ Text.natText n)

def version : String := "SELECT version()"

end Statement
end PanelSource
