import PanelSource.Store.Basic
import PanelSource.Store.Selection

/-! # A store of typed tables -/
namespace PanelSource

/-- Rows in the order of insertion, with a cell for each column. -/
structure StoredTable where
  name : String
  cols : List String
  rows : List (List Cell)

structure Catalog where
  tables : List StoredTable

def engineVersion : String := "v1.1.1"

/-- Why a selection has no result. -/
inductive SelectionError
  | notUnderstood
  | noSchema (name : String)
  | noTable (name : String)
  | noColumn (name : String)
  deriving DecidableEq, Repr

def SelectionError.message : SelectionError → String
  | notUnderstood => "Parser Error: the statement was not understood"
  | noSchema name => "Catalog Error: Schema with name " ++ name ++ " does not exist!"
  | noTable name => "Catalog Error: Table with name " ++ name ++ " does not exist!"
  | noColumn name => "Binder Error: Referenced column \"" ++ name ++ "\" not found in FROM clause!"

/-- Names of tables and columns are compared without regard to the case of ASCII letters. -/
def sameName (a b : String) : Bool := Text.lowerAscii a == Text.lowerAscii b

namespace StoredTable

def position? (t : StoredTable) (name : String) : Option Nat := t.cols.findIdx? (sameName name)

/-- The positions that are projected. -/
def positions (t : StoredTable) : List Projected → Except SelectionError (List Nat)
  | [] => .ok []
  | .all :: rest => do return List.range t.cols.length ++ (← positions t rest)
  | .column name :: rest =>
    match t.position? name with
    | none => .error (.noColumn name)
    | some i => do return i :: (← positions t rest)

def limited (limit : Option Nat) (rows : List (List Cell)) : List (List Cell) :=
  match limit with
  | none => rows
  | some n => rows.take n

def project (t : StoredTable) (positions : List Nat) (limit : Option Nat) : Rowset where
  cols := positions.map fun i => (t.cols[i]?).getD ""
  rows := (limited limit t.rows).map fun row => positions.map fun i => (row[i]?).getD .null

end StoredTable

namespace Catalog

def table? (c : Catalog) (name : String) : Option StoredTable :=
  c.tables.find? fun t => sameName name t.name

def requireSchema : Option String → Except SelectionError Unit
  | none => .ok ()
  | some name => if sameName name "main" then .ok () else .error (.noSchema name)

/-- A single column of texts. -/
def column (name : String) (values : List String) : Rowset :=
  ⟨[name], values.map fun s => [.text (Text.Utf8.encode s.toList)]⟩

def answer (c : Catalog) : Selection → Except SelectionError Rowset
  | .version => .ok (column "\"version\"()" [engineVersion])
  | .tableNames => .ok (column "table_name" (c.tables.map StoredTable.name))
  | .columnNames table =>
    .ok (column "column_name" ((c.tables.filter fun t => t.name == table).flatMap StoredTable.cols))
  | .integer n => .ok ⟨[Text.intText n], [[.hugeInt n]]⟩
  | .columns items schema table limit => do
    requireSchema schema
    match c.table? table with
    | none => .error (.noTable table)
    | some t => return t.project (← t.positions items) limit

def select (c : Catalog) (statement : String) : Except SelectionError Rowset :=
  match Selection.ofStatement? statement with
  | none => .error .notUnderstood
  | some selection => c.answer selection

/-- No statement changes the tables. -/
def engine : Engine Catalog := fun statement c =>
  ((c.select statement).mapError fun e => .database e.message, c)

end Catalog

def Store.ofCatalog : Store Catalog := .ofEngine Catalog.engine

end PanelSource
