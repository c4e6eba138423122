import PanelSource.Json.Basic
import PanelSource.Number.Shortest
import PanelSource.Text.Encoding
import PanelSource.Text.Shown

/-! # Typed cells of the store and their JSON -/
namespace PanelSource

inductive TimeUnit
  | second
  | millisecond
  | microsecond
  | nanosecond
  deriving DecidableEq, Repr

namespace TimeUnit

def name : TimeUnit → String
  | second => "Second"
  | millisecond => "Millisecond"
  | microsecond => "Microsecond"
  | nanosecond => "Nanosecond"

/-- Milliseconds of a count of units, however many bits they take; what is finer is cut off toward
zero. -/
def millis : TimeUnit → Int → Int
  | second, raw => raw * 1000
  | millisecond, raw => raw
  | microsecond, raw => raw.tdiv 1000
  | nanosecond, raw => raw.tdiv 1000000

/-- Milliseconds in 64 bits; more than these hold are an overflow. -/
def millis? (unit : TimeUnit) (raw : Int) : Option Int :=
  (some (unit.millis raw)).filter Text.fitsInt64

end TimeUnit

/-- Integer types of up to 64 bits. -/
inductive IntegerType
  | int8
  | int16
  | int32
  | int64
  | uint8
  | uint16
  | uint32
  | uint64
  deriving DecidableEq, Repr

namespace IntegerType

def name : IntegerType → String
  | int8 => "TinyInt"
  | int16 => "SmallInt"
  | int32 => "Int"
  | int64 => "BigInt"
  | uint8 => "UTinyInt"
  | uint16 => "USmallInt"
  | uint32 => "UInt"
  | uint64 => "UBigInt"

def least : IntegerType → Int
  | int8 => -128
  | int16 => -32768
  | int32 => -2147483648
  | int64 => -9223372036854775808
  | _ => 0

def greatest : IntegerType → Int
  | int8 => 127
  | int16 => 32767
  | int32 => 2147483647
  | int64 => 9223372036854775807
  | uint8 => 255
  | uint16 => 65535
  | uint32 => 4294967295
  | uint64 => 18446744073709551615

def holds (t : IntegerType) (n : Int) : Bool := t.least ≤ n && n ≤ t.greatest

end IntegerType

/-- A value inside a list or a structure. -/
inductive Scalar
  | null
  | boolean (b : Bool)
  | integer (type : IntegerType) (n : Int)
  | double (x : Extended)
  | text (s : String)
  deriving DecidableEq

/-- A value of the store. A decimal is `mantissa * 10 ^ -scale`; texts are bytes and need not be
valid. -/
inductive Cell
  | null
  | boolean (b : Bool)
  | integer (type : IntegerType) (n : Int)
  | hugeInt (n : Int)
  | float (x : Extended)
  | double (x : Extended)
  | decimal (mantissa : Int) (scale : Nat)
  | timestamp (unit : TimeUnit) (raw : Int)
  | date (days : Int)
  | time (unit : TimeUnit) (raw : Int)
  | interval (months days nanos : Int)
  | text (bytes : List Nat)
  | blob (bytes : List Nat)
  | list (items : List Scalar)
  | record (fields : List (String × Scalar))
  | label (s : String)
  deriving DecidableEq

namespace Scalar

/-- The type of a value and the value, as they are shown where JSON has no form for them. -/
def shown : Scalar → String
  | null => "Null"
  | boolean b => if b then "Boolean(true)" else "Boolean(false)"
  | integer type n => type.name ++ "(" ++ Text.intText n ++ ")"
  | double x => "Double(" ++ NumberLayout.shown.renderExtended x ++ ")"
  | text s => "Text(" ++ Text.shown s ++ ")"

end Scalar

namespace Cell

def millisPerDay : Int := 86400000

def ofDouble? (x : Option Double) : Json :=
  match x with
  | some x => Json.double x
  | none => .null

def shownField (name : String) (value : Scalar) : String :=
  "(" ++ Text.shown name ++ ", " ++ value.shown ++ ")"

/-- Whether the milliseconds of an instant are more than 64 bits hold. -/
def overflows : Cell → Bool
  | timestamp unit raw => (unit.millis? raw).isNone
  | date days => !Text.fitsInt64 (days * millisPerDay)
  | _ => false

/-- Numbers and instants become numbers, doubles without a number null, an integer beyond 64 bits
the nearest double. -/
def toJson : Cell → Json
  | null => .null
  | boolean b => .bool b
  | integer _ n => Json.int n
  | hugeInt n => if Text.fitsInt64 n then Json.int n else ofDouble? (Double.ofInt? n)
  | float x => ofDouble? x.finite?
  | double x => ofDouble? x.finite?
  | decimal mantissa scale =>
    ofDouble? (Double.ofDecimal? (decide (mantissa < 0)) mantissa.natAbs (-scale))
  | timestamp unit raw => Json.int (unit.millis raw)
  | date days => Json.int (days * millisPerDay)
  | text bytes => .text (String.ofList (Text.Utf8.decodeLossy bytes))
  | blob bytes => .text (String.ofList (Text.Utf8.decodeLossy bytes))
  | time unit raw => .text ("Time64(" ++ unit.name ++ ", " ++ Text.intText raw ++ ")")
  | interval months days nanos =>
    .text ("Interval \x7b months: " ++ Text.intText months ++ ", days: " ++ Text.intText days ++
      ", nanos: " ++ Text.intText nanos ++ " \x7d")
  | list items => .text ("List([" ++ ", ".intercalate (items.map Scalar.shown) ++ "])")
  | record fields =>
    .text ("Struct(OrderedMap([" ++
      ", ".intercalate (fields.map fun (name, value) => shownField name value) ++ "]))")
  | label s => .text ("Enum(" ++ Text.shown s ++ ")")

/-- An overflow has no JSON. -/
def toJson? (c : Cell) : Option Json := if c.overflows then none else some c.toJson

end Cell
end PanelSource
