import PanelSource.Instant.Text
import PanelSource.Json.Record
import PanelSource.Query.Description

/-! # Result tables

A cell can be read as an instant. Rows are grouped by keys: they are taken one after the other, each
joins the group of its key, and a key that has none yet opens one behind all others. -/
namespace PanelSource

/-- Named columns and rows. A row may be shorter or longer than the list of columns. -/
structure Table where
  cols : List String
  rows : List (List Json)

namespace Table

def empty : Table := ⟨[], []⟩

/-- The first column of a name. -/
def position? (t : Table) (name : String) : Option Nat := t.cols.findIdx? (· == name)

/-- A missing cell counts as null. -/
def cell (row : List Json) (position : Nat) : Json := (row[position]?).getD .null

inductive Field
  | cols
  | rows
  deriving DecidableEq

def Field.Value : Field → Type
  | .cols => List String
  | .rows => List (List Json)

def shape : RecordShape Field Field.Value Table where
  fields := [.cols, .rows]
  named?
    | "cols" => some .cols
    | "rows" => some .rows
    | _ => none
  read
    | .cols => Reader.list Reader.text
    | .rows => Reader.list (Reader.list Outline.toJson)
  absent? _ := none
  omitted? _ := none
  build? get := do return ⟨← get .cols, ← get .rows⟩

def toJson (t : Table) : Json :=
  Json.ofFields [("cols", Json.texts t.cols), ("rows", .array (t.rows.map Json.array))]

end Table

structure Datapoint where
  value : Json
  millis : Int

structure Series where
  target : String
  datapoints : List Datapoint

def Datapoint.toJson (p : Datapoint) : Json := .array [p.value, Json.int p.millis]

def Series.toJson (s : Series) : Json :=
  Json.ofFields [("target", .text s.target),
    ("datapoints", .array (s.datapoints.map Datapoint.toJson))]

abbrev GroupKey := List String

/-- Keys in the order of their first rows, each with the numbers of its rows. -/
abbrev Groups := List (GroupKey × List Nat)

namespace Groups

def add (key : GroupKey) (row : Nat) : Groups → Groups
  | [] => [(key, [row])]
  | (k, rows) :: rest =>
    if k = key then (k, rows ++ [row]) :: rest else (k, rows) :: add key row rest

/-- The keys belong to the rows from `row` on. -/
def addAll (g : Groups) (row : Nat) : List GroupKey → Groups
  | [] => g
  | key :: keys => addAll (g.add key row) (row + 1) keys

def ofKeys (keys : List GroupKey) : Groups := addAll [] 0 keys

end Groups

def clampInt64 (n : Int) : Int := max Text.minInt64 (min n Text.maxInt64)

namespace Json

/-- A double loses its fraction; beyond 64 bits it becomes the end of their range. -/
def doubleMillis (x : Double) : Int := clampInt64 x.truncate

/-- Milliseconds as a number, as the text of an integer or as the text of an instant. An integer
beyond the signed 64 bits is taken as the nearest double. -/
def millis? : Json → Option Int
  | .number (.int n) => if Text.fitsInt64 n then some n else (Double.ofInt? n).map doubleMillis
  | .number (.double x) => some (doubleMillis x)
  | .text s => (Text.int64? s).or ((Instant.ofStrictText? s).map Instant.millis)
  | _ => none

end Json

def timestamp (row : Nat) (cell : Json) : Except QueryError Int :=
  match cell.millis? with
  | some ms => .ok ms
  | none => .error (.invalidTimestamp row cell)

end PanelSource
