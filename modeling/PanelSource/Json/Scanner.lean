import PanelSource.Json.Outline
import PanelSource.Text.Basic

/-! # From text to outline -/
namespace PanelSource

namespace Json

def isSpace (c : Char) : Bool := c == ' ' || c == '\n' || c == '\t' || c == '\r'

def dropSpace (cs : List Char) : List Char := cs.dropWhile isSpace

/-- A piece of a quoted text: a character as it stands, or a 16-bit unit given by an escape. -/
inductive Unit16
  | plain (c : Char)
  | code (n : Nat)

def Unit16.highHalf (n : Nat) : Bool := 0xD800 ≤ n && n ≤ 0xDBFF
def Unit16.lowHalf (n : Nat) : Bool := 0xDC00 ≤ n && n ≤ 0xDFFF

/-- Two halves that follow each other are one character; a half alone is none. -/
def joinUnits : List Unit16 → Option (List Char)
  | [] => some []
  | .plain c :: rest => (joinUnits rest).map (c :: ·)
  | .code n :: rest =>
    if Unit16.highHalf n then
      match rest with
      | .code m :: rest' =>
        if Unit16.lowHalf m then
          (joinUnits rest').map (Char.ofNat (0x10000 + (n - 0xD800) * 0x400 + (m - 0xDC00)) :: ·)
        else none
      | _ => none
    else if Unit16.lowHalf n then none
    else (joinUnits rest).map (Char.ofNat n :: ·)

def hex4? : List Char → Option (Nat × List Char)
  | a :: b :: c :: d :: rest => do
    let a ← Text.hexValue? a
    let b ← Text.hexValue? b
    let c ← Text.hexValue? c
    let d ← Text.hexValue? d
    return (((a * 16 + b) * 16 + c) * 16 + d, rest)
  | _ => none

def simpleEscape? : Char → Option Char
  | '"' => some '"'
  | '\\' => some '\\'
  | '/' => some '/'
  | 'b' => some (Char.ofNat 8)
  | 'f' => some (Char.ofNat 12)
  | 'n' => some '\n'
  | 'r' => some '\r'
  | 't' => some '\t'
  | _ => none

/-- The units up to the closing quote, and what follows it. -/
def scanUnits : Nat → List Char → Option (List Unit16 × List Char)
  | 0, _ => none
  | fuel + 1, cs =>
    match cs with
    | [] => none
    | '"' :: rest => some ([], rest)
    | '\\' :: 'u' :: rest => do
      let (n, rest) ← hex4? rest
      let (us, rest) ← scanUnits fuel rest
      return (.code n :: us, rest)
    | '\\' :: c :: rest => do
      let c ← simpleEscape? c
      let (us, rest) ← scanUnits fuel rest
      return (.plain c :: us, rest)
    | c :: rest =>
      if c.toNat < 32 || c == '\\' then none
      else do
        let (us, rest) ← scanUnits fuel rest
        return (.plain c :: us, rest)

/-- The text after an opening quote; its content may be unreadable although its end is known. -/
def scanText (cs : List Char) : Option (Option String × List Char) :=
  (scanUnits (cs.length + 1) cs).map fun (us, rest) => ((joinUnits us).map String.ofList, rest)

/-- Digits are taken as long as the value stays below 2^64: the value, how many were taken, and how
many were left. -/
def significand : Nat → Nat → List Char → Nat × Nat × Nat
  | n, taken, [] => (n, taken, 0)
  | n, taken, c :: cs =>
    let n' := 10 * n + Text.digitValue c
    if n' < UInt64.size then significand n' (taken + 1) cs else (n, taken, cs.length + 1)

/-- The double of a literal whose digits are cut to a 64-bit significand. -/
def literalDouble? (negative : Bool) (whole fraction : List Char) (exponent : Int) :
    Option Double :=
  let (n, _, left) := significand 0 0 whole
  if left = 0 then
    let (n, taken, _) := significand n 0 fraction
    Double.scaled? negative n (exponent - taken)
  else Double.scaled? negative n (exponent + left)

/-- A literal without point and exponent is an integer where 64 bits hold it, with or without sign;
the negative zero is a double. -/
def literal? (negative : Bool) (whole : List Char) (fraction : Option (List Char))
    (exponent : Option Int) : Option Number :=
  let n := Text.digitsValue whole
  if fraction.isNone && exponent.isNone && negative && n ≠ 0 && Text.fitsInt64 (-n) then
    some (.int (-n))
  else if fraction.isNone && exponent.isNone && !negative && n < UInt64.size then some (.int n)
  else (literalDouble? negative whole (fraction.getD []) (exponent.getD 0)).map .double

def scanDigits (cs : List Char) : Option (List Char × List Char) :=
  match cs.takeWhile Char.isDigit with
  | [] => none
  | ds => some (ds, cs.dropWhile Char.isDigit)

/-- Digits without a superfluous zero in front. -/
def scanWhole (cs : List Char) : Option (List Char × List Char) := do
  let (ds, rest) ← scanDigits cs
  match ds with
  | '0' :: _ :: _ => none
  | _ => return (ds, rest)

def scanFraction (cs : List Char) : Option (Option (List Char) × List Char) :=
  match cs with
  | '.' :: rest => (scanDigits rest).map fun (ds, rest) => (some ds, rest)
  | _ => some (none, cs)

def scanExponent (cs : List Char) : Option (Option Int × List Char) :=
  match cs with
  | c :: rest =>
    if c == 'e' || c == 'E' then
      let (negative, rest) := match rest with
        | '-' :: r => (true, r)
        | '+' :: r => (false, r)
        | r => (false, r)
      (scanDigits rest).map fun (ds, rest) =>
        (some (Double.signed negative (Text.digitsValue ds)), rest)
    else some (none, cs)
  | [] => some (none, [])

def scanNumber (cs : List Char) : Option (Option Number × List Char) := do
  let (negative, cs) := match cs with
    | '-' :: rest => (true, rest)
    | _ => (false, cs)
  let (whole, cs) ← scanWhole cs
  let (fraction, cs) ← scanFraction cs
  let (exponent, cs) ← scanExponent cs
  return (literal? negative whole fraction exponent, cs)

def scanWord (word : String) (value : Outline) (cs : List Char) : Outline × Option (List Char) :=
  match Text.dropWord? word.toList cs with
  | some rest => (value, some rest)
  | none => (.broken, none)

mutual

/-- The outline of one value and the text after it; there is none after a broken value. -/
def scanValue : Nat → Nat → List Char → Outline × Option (List Char)
  | 0, _, _ => (.broken, none)
  | fuel + 1, depth, cs =>
    match dropSpace cs with
    | [] => (.broken, none)
    | c :: rest =>
      if c == 'n' then scanWord "null" .null (c :: rest)
      else if c == 't' then scanWord "true" (.bool true) (c :: rest)
      else if c == 'f' then scanWord "false" (.bool false) (c :: rest)
      else if c == '"' then
        match scanText rest with
        | some (s, rest) => (.text s, some rest)
        | none => (.broken, none)
      else if c == '-' || c.isDigit then
        match scanNumber (c :: rest) with
        | some (x, rest) => (.number x, some rest)
        | none => (.broken, none)
      else if c == '[' then
        match dropSpace rest with
        | ']' :: rest => (.array (depth + 1) [], some rest)
        | rest =>
          let (items, rest) := scanItems fuel (depth + 1) rest
          (.array (depth + 1) items, rest)
      else if c.toNat == 0x7B then
        match dropSpace rest with
        | [] => (.object (depth + 1) [(none, .broken)], none)
        | d :: rest =>
          if d.toNat == 0x7D then (.object (depth + 1) [], some rest)
          else
            let (fields, rest) := scanFields fuel (depth + 1) (d :: rest)
            (.object (depth + 1) fields, rest)
      else (.broken, none)

def scanItems : Nat → Nat → List Char → List Outline × Option (List Char)
  | 0, _, _ => ([.broken], none)
  | fuel + 1, depth, cs =>
    match scanValue fuel depth cs with
    | (x, none) => ([x], none)
    | (x, some rest) =>
      match dropSpace rest with
      | ']' :: rest => ([x], some rest)
      | ',' :: rest =>
        let (xs, rest) := scanItems fuel depth rest
        (x :: xs, rest)
      | _ => ([x, .broken], none)

def scanFields : Nat → Nat → List Char → List (Option String × Outline) × Option (List Char)
  | 0, _, _ => ([(none, .broken)], none)
  | fuel + 1, depth, cs =>
    match dropSpace cs with
    | '"' :: rest =>
      match scanText rest with
      | none => ([(none, .broken)], none)
      | some (name, rest) =>
        match dropSpace rest with
        | ':' :: rest =>
          match scanValue fuel depth rest with
          | (v, none) => ([(name, v)], none)
          | (v, some rest) =>
            match dropSpace rest with
            | ',' :: rest =>
              let (fs, rest) := scanFields fuel depth rest
              ((name, v) :: fs, rest)
            | c :: rest =>
              if c.toNat == 0x7D then ([(name, v)], some rest)
              else ([(name, v), (none, .broken)], none)
            | [] => ([(name, v), (none, .broken)], none)
        | _ => ([(name, .broken)], none)
    | _ => ([(none, .broken)], none)

end

/-- The outline of a text, and whether something other than space follows the value. -/
def scan (text : String) : Outline × Bool :=
  let cs := text.toList
  match scanValue (2 * cs.length + 2) 0 cs with
  | (x, none) => (x, false)
  | (x, some rest) => (x, !(dropSpace rest).isEmpty)

end Json

/-- Reads a text by its outline; what follows the value is looked at last. -/
def Outline.readText {α : Type} (read : Outline → Except Fault α) (text : String) :
    Except Fault α := do
  let (outline, trailing) := Json.scan text
  let a ← read outline
  if trailing then .error .malformed else return a

def Json.parse (text : String) : Except Fault Json := Outline.readText Outline.toJson text

end PanelSource
