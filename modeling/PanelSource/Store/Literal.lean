import PanelSource.Instant.Calendar
import PanelSource.Store.ColumnType

/-! # Texts cast to the type of a column -/
namespace PanelSource.Literal

def boolean? (cs : List Char) : Option Cell :=
  match Text.lowerAscii (String.ofList cs) with
  | "true" | "t" | "1" => some (.boolean true)
  | "false" | "f" | "0" => some (.boolean false)
  | _ => none

def integer? (type : IntegerType) (cs : List Char) : Option Int :=
  (Text.integer? cs).filter type.holds

/-- A decimal numeral: whether it is negative, its digits without the point, how many of them stand
after the point, and the exponent. -/
structure Numeral where
  negative : Bool
  digits : List Char
  places : Nat
  exponent : Int

def splitSign : List Char → Bool × List Char
  | '-' :: cs => (true, cs)
  | '+' :: cs => (false, cs)
  | cs => (false, cs)

def numeral? (cs : List Char) : Option Numeral := do
  let (negative, cs) := splitSign cs
  let mark := cs.dropWhile fun c => c.isDigit || c == '.'
  let (whole, fraction) := Text.cutAt '.' (cs.takeWhile fun c => c.isDigit || c == '.')
  let digits := whole ++ fraction.getD []
  if digits = [] ∨ !digits.all Char.isDigit then none
  match mark with
  | [] => return ⟨negative, digits, (fraction.getD []).length, 0⟩
  | e :: exponent =>
    if e = 'e' ∨ e = 'E' then
      return ⟨negative, digits, (fraction.getD []).length, ← Text.integer? exponent⟩
    else none

/-- The point of a grid nearest to a numeral; scales far outside a grid are decided by size. -/
def nearest (g : Grid) (x : Numeral) : Extended :=
  let n := Text.digitsValue x.digits
  let e := x.exponent - x.places
  let size := ((Nat.toDigits 10 n).length : Int) + e
  if n = 0 ∨ size < -400 then .ofRank g x.negative 0
  else if 400 < size then .infinity x.negative
  else .ofRank g x.negative
    (min g.infinity (g.nearest (n * Nat.pow 10 e.toNat) (Nat.pow 10 (-e).toNat)))

/-- A number of a grid, or one of the words for what is none. -/
def floating? (g : Grid) (cs : List Char) : Option Extended :=
  let (negative, rest) := splitSign cs
  match Text.lowerAscii (String.ofList rest) with
  | "nan" => some .nan
  | "inf" | "infinity" => some (.infinity negative)
  | _ => (numeral? cs).map (nearest g)

/-- A decimal with the scale of its column; what is finer is rounded, a half away from zero. -/
def decimal? (scale : Nat) (cs : List Char) : Option Cell := do
  let x ← numeral? cs
  let n := Text.digitsValue x.digits
  let e := x.exponent - x.places + scale
  let d := Nat.pow 10 (-e).toNat
  let m := Double.signed x.negative ((2 * n * Nat.pow 10 e.toNat + d) / (2 * d))
  return if scale = 0 then .hugeInt m else .decimal m scale

/-- A backslash, an x and two hexadecimal digits are one byte. -/
def blobBytes : List Char → List Nat
  | '\\' :: 'x' :: a :: b :: rest =>
    match Text.hexValue? a, Text.hexValue? b with
    | some a, some b => (16 * a + b) :: blobBytes rest
    | _, _ => 92 :: blobBytes ('x' :: a :: b :: rest)
  | c :: rest => Text.Utf8.encodeChar c ++ blobBytes rest
  | [] => []

def date? (cs : List Char) : Option Int :=
  match Text.splitOnChar '-' cs with
  | [y, m, d] => do
    return (← Date.ofParts? (← Text.natural? y) (← Text.natural? m) (← Text.natural? d)).toDay
  | _ => none

/-- Digits after the point as a count of the given number of places; more digits do not count. -/
def fraction? (places : Nat) : Option (List Char) → Option Nat
  | none => some 0
  | some [] => some 0
  | some ds => do
    let kept := ds.take places
    return (← Text.natural? kept) * Nat.pow 10 (places - kept.length)

/-- Hours, minutes, seconds and a fraction, in units of `10 ^ -places` seconds. -/
def clock? (places : Nat) (cs : List Char) : Option Nat :=
  match Text.splitOnChar ':' cs with
  | [h, m, s] => do
    let (s, fraction) := Text.cutAt '.' s
    let h ← Text.natural? h
    let m ← Text.natural? m
    let s ← Text.natural? s
    if h < 24 ∧ m < 60 ∧ s < 60 then
      return (h * 3600 + m * 60 + s) * Nat.pow 10 places + (← fraction? places fraction)
    else none
  | _ => none

def instant? (places : Nat) (cs : List Char) : Option Int := do
  let (date, clock) := Text.cutAt ' ' cs
  let day ← date? date
  let n ← match clock with
    | none => some 0
    | some clock => clock? places clock
  return day * 86400 * (Nat.pow 10 places : Nat) + (n : Nat)

/-- The words for no end and no beginning of time stand for the greatest count and its opposite. -/
def endless? (greatest : Int) (cs : List Char) : Option Int :=
  match Text.lowerAscii (String.ofList cs) with
  | "infinity" => some greatest
  | "-infinity" => some (-greatest)
  | _ => none

/-- Division with the half taken away from zero. -/
def roundedQuotient (n : Int) (d : Nat) : Int :=
  Double.signed (decide (n < 0)) ((2 * n.natAbs + d) / (2 * d))

/-- Coarse units are rounded from microseconds. -/
def finite? (unit : TimeUnit) (cs : List Char) : Option Int :=
  match unit with
  | .nanosecond => instant? 9 cs
  | .microsecond => instant? 6 cs
  | .millisecond => (instant? 6 cs).map fun n => roundedQuotient n 1000
  | .second => (instant? 6 cs).map fun n => roundedQuotient n 1000000

def timestamp? (unit : TimeUnit) (cs : List Char) : Option Int :=
  (endless? IntegerType.int64.greatest cs).or (finite? unit cs)

structure Span where
  months : Int := 0
  days : Int := 0
  micros : Int := 0

/-- One amount of a unit added; units may be in the plural. -/
def Span.add? (s : Span) (n : Int) (unit : String) : Option Span :=
  match unit with
  | "year" | "years" => some { s with months := s.months + 12 * n }
  | "month" | "months" => some { s with months := s.months + n }
  | "week" | "weeks" => some { s with days := s.days + 7 * n }
  | "day" | "days" => some { s with days := s.days + n }
  | "hour" | "hours" => some { s with micros := s.micros + 3600000000 * n }
  | "minute" | "minutes" => some { s with micros := s.micros + 60000000 * n }
  | "second" | "seconds" => some { s with micros := s.micros + 1000000 * n }
  | "millisecond" | "milliseconds" => some { s with micros := s.micros + 1000 * n }
  | "microsecond" | "microseconds" => some { s with micros := s.micros + n }
  | _ => none

def spanOf? : Span → List (List Char) → Option Span
  | s, [] => some s
  | s, n :: unit :: rest => do
    let s ← s.add? (← Text.integer? n) (Text.lowerAscii (String.ofList unit))
    spanOf? s rest
  | _, [_] => none

def interval? (cs : List Char) : Option Cell :=
  match (Text.splitOnChar ' ' cs).filter (· ≠ []) with
  | [] => none
  | words => (spanOf? {} words).map fun s => .interval s.months s.days (1000 * s.micros)

/-- What stands between an opening and a closing bracket. -/
def between? (opening closing : Char) (cs : List Char) : Option (List Char) :=
  match cs with
  | [] => none
  | c :: rest =>
    match rest.reverse with
    | [] => none
    | d :: inner => if c = opening ∧ d = closing then some (Text.trimChars inner.reverse) else none

def parts (cs : List Char) : List (List Char) :=
  if cs = [] then [] else (Text.splitOnChar ',' cs).map Text.trimChars

def element? (type : ElementType) (cs : List Char) : Option Scalar :=
  if Text.lowerAscii (String.ofList cs) = "null" then some .null
  else match type with
    | .varchar => some (.text (String.ofList cs))
    | .integer t => (integer? t cs).map (Scalar.integer t)

def list? (type : ElementType) (cs : List Char) : Option Cell := do
  return .list (← (parts (← between? '[' ']' cs)).mapM (element? type))

def unquoted (cs : List Char) : List Char := (between? '\'' '\'' cs).getD cs

def entry (cs : List Char) : String × List Char :=
  let (name, value) := Text.cutAt ':' cs
  (String.ofList (unquoted (Text.trimChars name)), Text.trimChars (value.getD []))

def record? (fields : List (String × ElementType)) (cs : List Char) : Option Cell := do
  let entries := (parts (← between? '\x7b' '\x7d' cs)).map entry
  let values ← fields.mapM fun (name, type) =>
    match entries.lookup name with
    | none => some (name, Scalar.null)
    | some value => (element? type value).map (name, ·)
  return .record values

def cell? (type : ColumnType) (s : String) : Option Cell :=
  let cs := Text.trimChars s.toList
  match type with
  | .boolean => boolean? cs
  | .integer t => (integer? t cs).map (Cell.integer t)
  | .hugeInt => (Text.integer? cs).map Cell.hugeInt
  | .float => (floating? .single cs).map Cell.float
  | .double => (floating? .double cs).map Cell.double
  | .decimal scale => decimal? scale cs
  | .varchar => some (.text (Text.Utf8.encode s.toList))
  | .uuid => some (.text (Text.Utf8.encode (Text.lowerAscii (String.ofList cs)).toList))
  | .blob => some (.blob (blobBytes s.toList))
  | .date => ((endless? IntegerType.int32.greatest cs).or (date? cs)).map Cell.date
  | .timestamp unit => (timestamp? unit cs).map (Cell.timestamp unit)
  | .time => (clock? 6 cs).map fun n => Cell.time .microsecond n
  | .interval => interval? cs
  | .list element => list? element cs
  | .record fields => record? fields cs

end PanelSource.Literal
