import PanelSource.Json.Outline
import PanelSource.Text.Basic

/-! # Readers of values, choices and records

A record may be given by the names of its fields or, as an array, by their order. Both forms are
read into bindings of fields to values, from which the record is built. -/
namespace PanelSource

abbrev Reader (α : Type) := Outline → Except Fault α

namespace Reader

def text : Reader String
  | .text (some s) => .ok s
  | other => .error other.mismatch

def bool : Reader Bool
  | .bool b => .ok b
  | other => .error other.mismatch

/-- An integer with a property; the others are of the wrong shape, as is every double. -/
def intWhere (p : Int → Bool) : Reader Int
  | .number (some (.int n)) => if p n then .ok n else .error .shape
  | other => .error other.mismatch

def int64 : Reader Int := intWhere Text.fitsInt64

/-- A count below two to the 64th. -/
def count : Reader Nat := fun x => (intWhere (fun n => 0 ≤ n && n < UInt64.size) x).map Int.toNat

def optional {α : Type} (read : Reader α) : Reader (Option α)
  | .null => .ok none
  | other => (read other).map some

def items {α : Type} (read : Reader α) : List Outline → Except Fault (List α)
  | [] => .ok []
  | x :: rest => do return (← read x) :: (← items read rest)

def list {α : Type} (read : Reader α) : Reader (List α)
  | .array depth xs =>
    if Outline.depthLimit < depth then .error .malformed else items read xs
  | other => .error other.mismatch

/-- A text that a partial function understands. -/
def textWith {α : Type} (f : String → Option α) : Reader α := fun x => do
  match f (← text x) with
  | some a => return a
  | none => .error .shape

/-- One of some words, given as a text or as an object with this word alone, over null. -/
def choice {α : Type} (word? : String → Option α) : Reader α
  | .text (some s) => (word? s).elim (.error .shape) .ok
  | .object depth ((some name, value) :: rest) =>
    if Outline.depthLimit < depth then .error .malformed
    else match word? name, value, rest with
      | none, _, _ => .error .shape
      | some a, .null, [] => .ok a
      | some _, .null, _ => .error .malformed
      | some _, other, _ => .error other.mismatch
  | _ => .error .malformed

end Reader

/-- A value bound to a field. -/
abbrev Binding (F : Type) (V : F → Type) := (f : F) × V f

namespace Binding

variable {F : Type} [DecidableEq F] {V : F → Type}

def value? : List (Binding F V) → (f : F) → Option (V f)
  | [], _ => none
  | ⟨g, v⟩ :: rest, f => if h : g = f then some (h ▸ v) else value? rest f

def binds (bindings : List (Binding F V)) (f : F) : Bool := bindings.any (fun b => b.1 == f)

end Binding

/-- A record with fields `F`. A field may have several names. A field that is not named, or that
lies beyond the end of an array, may have a value nonetheless. -/
structure RecordShape (F : Type) (V : F → Type) (R : Type) where
  fields : List F
  named? : String → Option F
  read : (f : F) → Reader (V f)
  absent? : (f : F) → Option (V f)
  omitted? : (f : F) → Option (V f)
  build? : ((f : F) → Option (V f)) → Option R

namespace RecordShape

variable {F : Type} [DecidableEq F] {V : F → Type} {R : Type}

/-- Entries in the order of the text. An unknown name only has to stand before a value; a field
given twice is refused before its second value is read. -/
def readNamed (s : RecordShape F V R) :
    List (Binding F V) → List (Option String × Outline) → Except Fault (List (Binding F V))
  | bound, [] => .ok bound
  | _, (none, _) :: _ => .error .malformed
  | bound, (some name, value) :: rest =>
    match s.named? name with
    | none => if value.sound then readNamed s bound rest else .error .malformed
    | some f =>
      if Binding.binds bound f then .error .shape
      else match s.read f value with
        | .error fault => .error fault
        | .ok v => readNamed s (⟨f, v⟩ :: bound) rest

def readPlaced (s : RecordShape F V R) : List F → List Outline → Except Fault (List (Binding F V))
  | [], [] => .ok []
  | [], _ :: _ => .error .malformed
  | f :: fs, [] =>
    match s.omitted? f with
    | none => .error .shape
    | some v => (readPlaced s fs []).map (⟨f, v⟩ :: ·)
  | f :: fs, x :: xs =>
    match s.read f x with
    | .error fault => .error fault
    | .ok v => (readPlaced s fs xs).map (⟨f, v⟩ :: ·)

def finish (s : RecordShape F V R) (bound : List (Binding F V)) : Except Fault R :=
  (s.build? fun f => (Binding.value? bound f).or (s.absent? f)).elim (.error .shape) .ok

def reader (s : RecordShape F V R) : Reader R
  | .object depth entries =>
    if Outline.depthLimit < depth then .error .malformed
    else (s.readNamed [] entries).bind s.finish
  | .array depth items =>
    if Outline.depthLimit < depth then .error .malformed
    else (s.readPlaced s.fields items).bind s.finish
  | other => .error other.mismatch

end RecordShape

end PanelSource
