import PanelSource.Panel.Request
import PanelSource.Query.Statement
import PanelSource.Result.Series
import PanelSource.Store.Basic

/-! # Queries, suggestions and the health check over a store -/
namespace PanelSource

inductive ServiceError
  | query (e : QueryError)
  | store (e : StoreError)

def ServiceError.message : ServiceError → String
  | query e => e.message
  | store e => e.message

/-- The store and what has been done with it: statements and events, oldest first. -/
structure Session (σ : Type) where
  store : σ
  sent : List String := []
  events : List Event := []

/-- Work on a session that may fail; what was sent stays sent. -/
abbrev Work (σ α : Type) := ExceptT ServiceError (StateM (Session σ)) α

namespace Work

variable {σ : Type}

def report (e : Event) : Work σ Unit := modify fun s => { s with events := s.events ++ [e] }

def ofQuery {α : Type} : Except QueryError α → Work σ α
  | .ok a => pure a
  | .error e => throw (.query e)

def execute (store : Store σ) (statement : String) : Work σ Table := do
  let s ← get
  let (reply, next) := store statement s.store
  set { s with store := next, sent := s.sent ++ [statement], events := s.events ++ reply.events }
  match reply.answer with
  | .ok table => return table
  | .error e => throw (.store e)

end Work

/-- The text of a cell: texts as they are, other values as JSON. -/
def Json.cellText : Json → String
  | .text s => s
  | other => other.render

/-- Every cell but the nulls as a text, once, in the order of first occurrence. -/
def Table.suggestions (t : Table) : List String :=
  ((t.rows.flatten.filter fun c => !c.isNull).map Json.cellText).eraseDups

structure Health where
  status : String
  message : String
  title : String
  deriving DecidableEq, Repr

def Health.ofVersion (version : String) : Health :=
  ⟨"success", "Database: DuckDB, version: " ++ version, "Success"⟩

/-- The first cell of the first row. -/
def Table.versionText (t : Table) : String :=
  ((t.rows.head?.bind List.head?).map Json.cellText).getD "unknown"

/-- A store together with the defaults for its targets. -/
structure Datasource (σ : Type) where
  store : Store σ
  defaults : Defaults

namespace Datasource

variable {σ : Type} (ds : Datasource σ)

def prepare (range : Option TimeRange) (d : Description) : Description :=
  d.prepare ds.defaults range

def compile (d : Description) : Except QueryError String := (ds.prepare none d).compile

def queryTarget (range : Option TimeRange) (d : Description) : Work σ (List Series) := do
  let prepared := ds.prepare range d
  let statement ← Work.ofQuery prepared.compile
  Work.report (.compiled prepared.table statement)
  let table ← Work.execute ds.store statement
  let series ← Work.ofQuery (transform prepared table)
  Work.report (.transformed table.rows.length series.length)
  return series

/-- Targets in turn, but for the hidden ones; the first failure ends the work. -/
def queryTargets (range : Option TimeRange) : List Description → Work σ (List Series)
  | [] => return []
  | d :: rest =>
    if d.hide then queryTargets range rest
    else do
      let series ← ds.queryTarget range d
      return series ++ (← queryTargets range rest)

def query (request : Request) : Work σ (List Series) := do
  let series ← ds.queryTargets request.range request.targets
  Work.report (.answered request.targets.length series.length)
  return series

def health : Work σ Health := do
  return .ofVersion (← Work.execute ds.store Statement.version).versionText

def tables : Work σ (List String) := do
  return (← Work.execute ds.store Statement.tables).suggestions

def columns (table : String) : Work σ (List String) := do
  let statement ← Work.ofQuery (Statement.columns table)
  return (← Work.execute ds.store statement).suggestions

/-- The limit caps the rows that are read, not the texts that are found. -/
def values (table column : String) (limit : Option Nat) : Work σ (List String) := do
  let statement ← Work.ofQuery
    (Statement.values table column (some (limit.getD ds.defaults.valuesLimit)))
  return (← Work.execute ds.store statement).suggestions

end Datasource
end PanelSource
