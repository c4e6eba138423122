import PanelSource.Store.Cell
import PanelSource.Text.Basic

/-! # Types of columns -/
namespace PanelSource

inductive ElementType
  | integer (type : IntegerType)
  | varchar
  deriving DecidableEq, Repr

inductive ColumnType
  | boolean
  | integer (type : IntegerType)
  | hugeInt
  | float
  | double
  | decimal (scale : Nat)
  | varchar
  | uuid
  | blob
  | date
  | timestamp (unit : TimeUnit)
  | time
  | interval
  | list (element : ElementType)
  | record (fields : List (String × ElementType))
  deriving DecidableEq, Repr

namespace ElementType

def ofName? : String → Option ElementType
  | "TINYINT" => some (integer .int8)
  | "SMALLINT" => some (integer .int16)
  | "INTEGER" => some (integer .int32)
  | "BIGINT" => some (integer .int64)
  | "UTINYINT" => some (integer .uint8)
  | "USMALLINT" => some (integer .uint16)
  | "UINTEGER" => some (integer .uint32)
  | "UBIGINT" => some (integer .uint64)
  | "VARCHAR" => some varchar
  | _ => none

end ElementType

namespace ColumnType

def ofElement : ElementType → ColumnType
  | .integer type => integer type
  | .varchar => varchar

/-- The words between two brackets, split at commas. -/
def arguments? (name : String) (cs : List Char) : Option (List (List Char)) := do
  let rest ← Text.dropWord? name.toList cs
  let inner ← Text.dropWord? ['('] rest
  match inner.reverse with
  | ')' :: body => some ((Text.splitOnChar ',' body.reverse).map Text.trimChars)
  | _ => none

/-- A name and a type with a blank between them. -/
def field? (cs : List Char) : Option (String × ElementType) := do
  let (name, type) := Text.cutAt ' ' cs
  let element ← ElementType.ofName? (String.ofList (Text.trimChars (← type)))
  return (String.ofList name, element)

def decimal? (cs : List Char) : Option ColumnType :=
  match arguments? "DECIMAL" cs with
  | some [_, scale] => (Text.natural? scale).map decimal
  | _ => none

def record? (cs : List Char) : Option ColumnType := do
  return record (← (← arguments? "STRUCT" cs).mapM field?)

def list? (cs : List Char) : Option ColumnType :=
  match cs.reverse with
  | ']' :: '[' :: name => (ElementType.ofName? (String.ofList name.reverse)).map list
  | _ => none

def simple? : String → Option ColumnType
  | "BOOLEAN" => some boolean
  | "HUGEINT" => some hugeInt
  | "FLOAT" => some float
  | "DOUBLE" => some double
  | "UUID" => some uuid
  | "BLOB" => some blob
  | "DATE" => some date
  | "TIMESTAMP" => some (timestamp .microsecond)
  | "TIMESTAMP_S" => some (timestamp .second)
  | "TIMESTAMP_MS" => some (timestamp .millisecond)
  | "TIMESTAMP_NS" => some (timestamp .nanosecond)
  | "TIME" => some time
  | "INTERVAL" => some interval
  | name => (ElementType.ofName? name).map ofElement

def ofName? (name : String) : Option ColumnType :=
  (simple? name).or ((list? name.toList).or ((decimal? name.toList).or (record? name.toList)))

end ColumnType
end PanelSource
