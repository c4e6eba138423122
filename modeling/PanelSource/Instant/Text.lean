import PanelSource.Instant.Calendar
import PanelSource.Text.Basic

/-! # Two grammars of instants, and how instants are written

The strict grammar has a fixed width for every number and no blanks. The relaxed one, in which
ranges are given, admits blanks before numbers and separators and shorter numbers. -/
namespace PanelSource.Instant

/-- Up to `most` digits and what follows them; there must be `least`. -/
def takeDigits (least most : Nat) (cs : List Char) : Option (List Char × List Char) :=
  let ds := (cs.take most).takeWhile Char.isDigit
  if ds.length < least then none else some (ds, cs.drop ds.length)

def number? (least most : Nat) (cs : List Char) : Option (Nat × List Char) :=
  (takeDigits least most cs).map fun (ds, rest) => (Text.digitsValue ds, rest)

def sign? (c : Char) : List Char → Option (List Char)
  | d :: rest => if c = d then some rest else none
  | [] => none

def dateMark? : List Char → Option (List Char)
  | c :: rest => if c = 'T' ∨ c = 't' ∨ c = ' ' then some rest else none
  | [] => none

/-- The digits after a point, of which nine count, as nanoseconds. -/
def fraction? : List Char → Option (Nat × List Char)
  | '.' :: rest =>
    (takeDigits 1 9 rest).map fun (ds, rest) =>
      (Text.digitsValue ds * Nat.pow 10 (9 - ds.length), rest.dropWhile Char.isDigit)
  | cs => some (0, cs)

/-- A sign of a zone: whether it is a minus. -/
def zoneSign? : List Char → Option (Bool × List Char)
  | c :: rest =>
    if c = '+' then some (false, rest)
    else if c = '-' ∨ c.toNat = 0x2212 then some (true, rest)
    else none
  | [] => none

/-- Seconds east of the meridian: hours, then minutes behind what `separator` takes away. -/
def offset? (separator : List Char → Option (List Char)) (cs : List Char) :
    Option (Int × List Char) := do
  let (negative, cs) ← zoneSign? cs
  let (hours, cs) ← number? 2 2 cs
  let cs ← separator cs
  let (minutes, cs) ← number? 2 2 cs
  if minutes < 60 ∧ hours < 24 then
    let s : Int := (hours * 3600 + minutes * 60 : Nat)
    return (if negative then -s else s, cs)
  else none

def zone? (separator : List Char → Option (List Char)) : List Char → Option (Int × List Char)
  | [] => none
  | c :: rest => if c = 'Z' ∨ c = 'z' then some (0, rest) else offset? separator (c :: rest)

def strict? (cs : List Char) : Option Instant := do
  let (year, cs) ← number? 4 4 cs
  let cs ← sign? '-' cs
  let (month, cs) ← number? 2 2 cs
  let cs ← sign? '-' cs
  let (day, cs) ← number? 2 2 cs
  let cs ← dateMark? cs
  let (hour, cs) ← number? 2 2 cs
  let cs ← sign? ':' cs
  let (minute, cs) ← number? 2 2 cs
  let cs ← sign? ':' cs
  let (second, cs) ← number? 2 2 cs
  let (nanos, cs) ← fraction? cs
  let (offset, cs) ← zone? (sign? ':') cs
  if cs = [] then
    let date ← Date.ofParts? year month day
    ofLocal? date hour minute second nanos offset
  else none

/-- Four digits at most, or a sign and any number of digits. -/
def relaxedYear? (cs : List Char) : Option (Int × List Char) :=
  match Text.dropBlanks cs with
  | '-' :: rest => (number? 1 rest.length rest).map fun (n, rest) => (-(n : Int), rest)
  | '+' :: rest => (number? 1 rest.length rest).map fun (n, rest) => ((n : Int), rest)
  | rest => (number? 1 4 rest).map fun (n, rest) => ((n : Int), rest)

def relaxedNumber? (cs : List Char) : Option (Nat × List Char) := number? 1 2 (Text.dropBlanks cs)

def relaxedSign? (c : Char) (cs : List Char) : Option (List Char) := sign? c (Text.dropBlanks cs)

def relaxedZone? (cs : List Char) : Option (Int × List Char) :=
  match cs with
  | u :: t :: c :: rest =>
    if u.toLower = 'u' ∧ t.toLower = 't' ∧ c.toLower = 'c' then some (0, rest)
    else zone? (fun cs => some (cs.dropWhile fun c => c == ':' || Text.isBlank c)) cs
  | _ => zone? (fun cs => some (cs.dropWhile fun c => c == ':' || Text.isBlank c)) cs

def relaxed? (cs : List Char) : Option Instant := do
  let (year, cs) ← relaxedYear? cs
  let cs ← relaxedSign? '-' cs
  let (month, cs) ← relaxedNumber? cs
  let cs ← relaxedSign? '-' cs
  let (day, cs) ← relaxedNumber? cs
  let cs ← dateMark? cs
  let (hour, cs) ← relaxedNumber? cs
  let cs ← relaxedSign? ':' cs
  let (minute, cs) ← relaxedNumber? cs
  let cs ← relaxedSign? ':' cs
  let (second, cs) ← relaxedNumber? cs
  let (nanos, cs) ← fraction? cs
  let (offset, cs) ← relaxedZone? (Text.dropBlanks cs)
  if Text.dropBlanks cs = [] then
    let date ← Date.ofParts? year month day
    ofLocal? date hour minute second nanos offset
  else none

def ofStrictText? (s : String) : Option Instant := strict? s.toList

def ofText? (s : String) : Option Instant := relaxed? s.toList

end PanelSource.Instant

namespace PanelSource

/-- Four digits; beyond them, and before the year 0, with a sign. -/
def Date.yearText (year : Int) : String :=
  if 0 ≤ year ∧ year ≤ 9999 then Text.padded 4 year.toNat
  else (if year < 0 then "-" else "+") ++ Text.padded 4 year.natAbs

namespace Instant

/-- Three, six or nine digits, the fewest that are exact, and none for whole seconds. -/
def fractionText (nanos : Nat) : String :=
  if nanos = 0 then ""
  else if nanos % 1000000 = 0 then "." ++ Text.padded 3 (nanos / 1000000)
  else if nanos % 1000 = 0 then "." ++ Text.padded 6 (nanos / 1000)
  else "." ++ Text.padded 9 nanos

def render (t : Instant) : String :=
  let date := Date.ofDay (t.seconds / 86400)
  let s := (t.seconds % 86400).toNat
  let leap := t.nanos / 1000000000
  Date.yearText date.year ++ "-" ++ Text.padded 2 date.month ++ "-" ++ Text.padded 2 date.day ++
    "T" ++ Text.padded 2 (s / 3600) ++ ":" ++ Text.padded 2 (s / 60 % 60) ++ ":" ++
    Text.padded 2 (s % 60 + leap) ++ fractionText (t.nanos % 1000000000) ++ "Z"

end Instant
end PanelSource
