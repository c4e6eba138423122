import PanelSource.Instant.Calendar
import PanelSource.Settings.Tree
import PanelSource.Toml.Text

/-! # Numbers, truth values and dates of TOML -/
namespace PanelSource.Toml

/-- Digits of a base with single underscores between them. -/
def grouped? (isDigit : Char → Bool) : List Char → Option (List Char)
  | [] => none
  | [c] => if isDigit c then some [c] else none
  | c :: d :: rest =>
    if !isDigit c then none
    else if d = '_' then (grouped? isDigit rest).map (c :: ·)
    else (grouped? isDigit (d :: rest)).map (c :: ·)

def baseDigits? (base : Nat) (cs : List Char) : Option Nat := do
  let ds ← grouped? (fun c => (Text.hexValue? c).any (· < base)) cs
  return ds.foldl (fun n c => base * n + (Text.hexValue? c).getD 0) 0

def splitSign (cs : List Char) : Bool × List Char :=
  match cs with
  | '-' :: rest => (true, rest)
  | '+' :: rest => (false, rest)
  | _ => (false, cs)

/-- Digits without a superfluous zero in front. -/
def whole? (cs : List Char) : Option (List Char) := do
  match ← grouped? Char.isDigit cs with
  | '0' :: _ :: _ => none
  | ds => return ds

def integer? (cs : List Char) : Option Int :=
  let number := match cs with
    | '0' :: 'x' :: ds => (baseDigits? 16 ds).map Int.ofNat
    | '0' :: 'o' :: ds => (baseDigits? 8 ds).map Int.ofNat
    | '0' :: 'b' :: ds => (baseDigits? 2 ds).map Int.ofNat
    | _ =>
      let (negative, ds) := splitSign cs
      (whole? ds).map fun ds => Double.signed negative (Text.digitsValue ds)
  number.filter Text.fitsInt64

def exponent? : Option (List Char) → Option Int
  | none => some 0
  | some cs =>
    let (negative, ds) := splitSign cs
    (grouped? Char.isDigit ds).map fun ds => Double.signed negative (Text.digitsValue ds)

/-- The part before an exponent mark and the part after it. -/
def cutExponent (cs : List Char) : List Char × Option (List Char) :=
  Text.cutAt 'e' (cs.map fun c => if c = 'E' then 'e' else c)

def finite? (negative : Bool) (cs : List Char) : Option Double := do
  let (mantissa, exponent) := cutExponent cs
  let (whole, fraction) := Text.cutAt '.' mantissa
  if exponent.isNone ∧ fraction.isNone then none
  let ws ← whole? whole
  let fs ← match fraction with
    | none => some []
    | some fs => grouped? Char.isDigit fs
  Double.ofDecimal? negative (Text.digitsValue (ws ++ fs)) ((← exponent? exponent) - fs.length)

def float? (cs : List Char) : Option Extended :=
  let (negative, rest) := splitSign cs
  match String.ofList rest with
  | "inf" => some (.infinity negative)
  | "nan" => some .nan
  | _ => (finite? negative rest).map Extended.finite

def twoDigits? : List Char → Option Nat
  | [a, b] => Text.natural? [a, b]
  | _ => none

def date? (cs : List Char) : Option (List Char) :=
  match Text.splitOnChar '-' cs with
  | [y, m, d] =>
    if y.length = 4 then do
      let _ ← Date.ofParts? (← Text.natural? y) (← twoDigits? m) (← twoDigits? d)
      return cs
    else none
  | _ => none

/-- Nine digits of a fraction count, and zeros at its end are left out. -/
def fraction? : Option (List Char) → Option (List Char)
  | none => some []
  | some ds =>
    if Text.natural? ds = none then none
    else match ((ds.take 9).reverse.dropWhile (· == '0')).reverse with
      | [] => some []
      | kept => some ('.' :: kept)

def time? (cs : List Char) : Option (List Char) := do
  let (clock, fraction) := Text.cutAt '.' cs
  match Text.splitOnChar ':' clock with
  | [h, m, s] =>
    if (← twoDigits? h) < 24 ∧ (← twoDigits? m) < 60 ∧ (← twoDigits? s) ≤ 60 then
      return clock ++ (← fraction? fraction)
    else none
  | _ => none

def zone? (cs : List Char) : Option (List Char) :=
  match cs with
  | [] => some []
  | ['Z'] => some ['Z']
  | ['z'] => some ['Z']
  | sign :: rest =>
    if sign = '+' ∨ sign = '-' then
      match Text.splitOnChar ':' rest with
      | [h, m] => do
        if (← twoDigits? h) < 24 ∧ (← twoDigits? m) < 60 then return cs else none
      | _ => none
    else none

def isZoneStart (c : Char) : Bool := c == 'Z' || c == 'z' || c == '+' || c == '-'

/-- A date and a time are kept as a text, with a capital T between them. -/
def dateTime? (cs : List Char) : Option (List Char) :=
  match cs.drop 10 with
  | [] => date? cs
  | mark :: rest =>
    if mark = 'T' ∨ mark = 't' ∨ mark = ' ' then do
      let date ← date? (cs.take 10)
      let time ← time? (rest.takeWhile fun c => !isZoneStart c)
      let zone ← zone? (rest.dropWhile fun c => !isZoneStart c)
      return date ++ 'T' :: (time ++ zone)
    else none

def moment? (cs : List Char) : Option (List Char) := (dateTime? cs).or (time? cs)

def isScalarChar (c : Char) : Bool :=
  c.isAlphanum || c == '_' || c == '+' || c == '-' || c == '.' || c == ':'

/-- The characters of a value without quotes or brackets; a blank may stand behind a date if a time
follows. -/
def takeScalar (cs : List Char) : List Char × List Char :=
  let first := cs.takeWhile isScalarChar
  match cs.dropWhile isScalarChar with
  | ' ' :: c :: rest =>
    if c.isDigit ∧ (date? first).isSome then
      (first ++ ' ' :: (c :: rest).takeWhile isScalarChar, (c :: rest).dropWhile isScalarChar)
    else (first, ' ' :: c :: rest)
  | rest => (first, rest)

def scalarValue? (cs : List Char) : Option Setting :=
  match String.ofList cs with
  | "true" => some (.bool true)
  | "false" => some (.bool false)
  | _ =>
    ((integer? cs).map Setting.int).or (((float? cs).map Setting.float).or
      ((moment? cs).map fun s => .text (String.ofList s)))

end PanelSource.Toml
