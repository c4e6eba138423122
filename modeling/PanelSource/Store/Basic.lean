import PanelSource.Journal.Event
import PanelSource.Result.Table
import PanelSource.Store.Cell

/-! # Stores, and engines as stores

An engine answers a statement with typed cells. The store over it reports each statement, and its
tables have the cells as JSON, unless one of them overflows: that ends the task, and no table and no
further report comes of it. -/
namespace PanelSource

/-- Why a store has no table for a statement. -/
inductive StoreError
  | database (message : String)
  | pool (message : String)
  | task (message : String)
  deriving DecidableEq, Repr

namespace StoreError

def message : StoreError → String
  | database message => "Database error: " ++ message
  | pool message => "Connection pool error: " ++ message
  | task message => "Query task failed: " ++ message

/-- A task ends where an integer overflows. -/
def overflow : StoreError := task "attempt to multiply with overflow"

end StoreError

/-- What comes back for a statement, and what the store has logged meanwhile. -/
structure Reply where
  answer : Except StoreError Table
  events : List Event := []

/-- A store is a machine: its answer may depend on all statements before. -/
abbrev Store (σ : Type) := String → σ → Reply × σ

namespace Store

/-- A store that gives prepared answers in turn, then empty tables. -/
def scripted : Store (List (Except StoreError Table)) := fun _ script =>
  match script with
  | [] => (⟨.ok Table.empty, []⟩, [])
  | answer :: rest => (⟨answer, []⟩, rest)

end Store

/-- What an engine selects: columns by their names, and rows with a cell for each of them. -/
structure Rowset where
  cols : List String
  rows : List (List Cell)

namespace Rowset

def toTable (r : Rowset) : Table := ⟨r.cols, r.rows.map fun row => row.map Cell.toJson⟩

def overflows (r : Rowset) : Bool := r.rows.any fun row => row.any Cell.overflows

def toTable? (r : Rowset) : Option Table := if r.overflows then none else some r.toTable

end Rowset

/-- An engine is a machine like a store. -/
abbrev Engine (σ : Type) := String → σ → Except StoreError Rowset × σ

/-- A statement is reported before it is run, its result or its failure after that, if the task
comes so far. -/
def Engine.events (statement : String) : Except StoreError Table → List Event
  | .ok t => [.executing statement, .returned t.rows.length t.cols]
  | .error (.task _) => [.executing statement]
  | .error e => [.executing statement, .executionFailed e.message]

def Store.ofEngine {σ : Type} (engine : Engine σ) : Store σ := fun statement x =>
  let (selected, next) := engine statement x
  let answer := selected.bind fun r => r.toTable?.elim (.error .overflow) .ok
  (⟨answer, Engine.events statement answer⟩, next)

end PanelSource
