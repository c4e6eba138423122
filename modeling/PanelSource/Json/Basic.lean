import PanelSource.Number.Shortest

/-! # JSON values and their compact text -/
namespace PanelSource

/-- Integers and doubles stay apart: `1` and `1.0` are two numbers. -/
inductive Number
  | int (n : Int)
  | double (x : Double)
  deriving DecidableEq

/-- The fields of an object stand in the order of their names, each name once. -/
inductive Json
  | null
  | bool (b : Bool)
  | number (x : Number)
  | text (s : String)
  | array (items : List Json)
  | object (fields : List (String × Json))

namespace Json

instance : Inhabited Json := ⟨null⟩

def int (n : Int) : Json := .number (.int n)
def double (x : Double) : Json := .number (.double x)
def texts (ss : List String) : Json := .array (ss.map .text)
def ofOption {α : Type} (f : α → Json) : Option α → Json
  | none => .null
  | some a => f a

/-- Puts a field at its place, over an earlier one of the same name. -/
def insertField (name : String) (value : Json) : List (String × Json) → List (String × Json)
  | [] => [(name, value)]
  | (n, v) :: rest =>
    if name < n then (name, value) :: (n, v) :: rest
    else if name = n then (name, value) :: rest
    else (n, v) :: insertField name value rest

theorem lookup_insertField_same (name : String) (value : Json) (fields : List (String × Json)) :
    (insertField name value fields).lookup name = some value := by
  induction fields with
  | nil => simp [insertField]
  | cons f rest ih =>
    obtain ⟨n, v⟩ := f
    simp only [insertField]
    split
    · simp
    · split
      · simp
      · rename_i h
        simp [List.lookup_cons, beq_false_of_ne h, ih]

theorem lookup_insertField_of_ne {name other : String} (h : other ≠ name) (value : Json)
    (fields : List (String × Json)) :
    (insertField name value fields).lookup other = fields.lookup other := by
  induction fields with
  | nil => simp [insertField, List.lookup_cons, beq_false_of_ne h]
  | cons f rest ih =>
    obtain ⟨n, v⟩ := f
    simp only [insertField]
    split
    · simp [List.lookup_cons, beq_false_of_ne h]
    · split
      · rename_i hn
        subst hn
        simp [List.lookup_cons, beq_false_of_ne h]
      · simp only [List.lookup_cons, ih]

/-- Of fields with one name the last one holds. -/
def ofFields (fields : List (String × Json)) : Json :=
  .object (fields.foldl (fun acc f => insertField f.1 f.2 acc) [])

def isNull : Json → Bool
  | .null => true
  | _ => false

def field? (name : String) : Json → Option Json
  | .object fields => fields.lookup name
  | _ => none

def asText? : Json → Option String
  | .text s => some s
  | _ => none

def asInt? : Json → Option Int
  | .number (.int n) => some n
  | _ => none

def asBool? : Json → Option Bool
  | .bool b => some b
  | _ => none

def asArray? : Json → Option (List Json)
  | .array items => some items
  | _ => none

def asFields? : Json → Option (List (String × Json))
  | .object fields => some fields
  | _ => none

end Json

def Number.render : Number → String
  | .int n => Text.intText n
  | .double x => NumberLayout.json.render x

namespace Json

/-- Quotes, backslashes and the control characters are escaped, the five common ones by a letter. -/
def escape (c : Char) : List Char :=
  if c = '"' then ['\\', '"']
  else if c = '\\' then ['\\', '\\']
  else if c = '\n' then ['\\', 'n']
  else if c = '\r' then ['\\', 'r']
  else if c = '\t' then ['\\', 't']
  else if c.toNat = 8 then ['\\', 'b']
  else if c.toNat = 12 then ['\\', 'f']
  else if c.toNat < 32 then
    '\\' :: 'u' :: '0' :: '0' :: [Nat.digitChar (c.toNat / 16), Nat.digitChar (c.toNat % 16)]
  else [c]

def quote (s : String) : String :=
  String.ofList ('"' :: (s.toList.flatMap escape ++ ['"']))

mutual

def render : Json → String
  | .null => "null"
  | .bool b => if b then "true" else "false"
  | .number x => x.render
  | .text s => quote s
  | .array items => "[" ++ renderItems items ++ "]"
  | .object fields => "\x7b" ++ renderFields fields ++ "\x7d"

def renderItems : List Json → String
  | [] => ""
  | [x] => x.render
  | x :: y :: rest => x.render ++ "," ++ renderItems (y :: rest)

def renderFields : List (String × Json) → String
  | [] => ""
  | [(n, v)] => quote n ++ ":" ++ v.render
  | (n, v) :: f :: rest => quote n ++ ":" ++ v.render ++ "," ++ renderFields (f :: rest)

end

end Json
end PanelSource
