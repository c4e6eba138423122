import PanelSource.Json.Basic

/-! # Trees of settings and their layers -/
namespace PanelSource

inductive Setting
  | null
  | bool (b : Bool)
  | int (n : Int)
  | float (x : Extended)
  | text (s : String)
  | array (items : List Setting)
  | table (fields : List (String × Setting))

namespace Setting

instance : Inhabited Setting := ⟨null⟩

mutual

def same : Setting → Setting → Bool
  | null, null => true
  | bool b, bool b' => b == b'
  | int n, int n' => n == n'
  | float x, float x' => x == x'
  | text s, text s' => s == s'
  | array items, array items' => sameItems items items'
  | table fields, table fields' => sameFields fields fields'
  | _, _ => false

def sameItems : List Setting → List Setting → Bool
  | [], [] => true
  | x :: items, x' :: items' => same x x' && sameItems items items'
  | _, _ => false

def sameFields : List (String × Setting) → List (String × Setting) → Bool
  | [], [] => true
  | (n, x) :: fields, (n', x') :: fields' => n == n' && same x x' && sameFields fields fields'
  | _, _ => false

end

mutual

theorem same_iff : ∀ x y : Setting, same x y = true ↔ x = y := by
  intro x y
  cases x <;> cases y <;> simp [same, sameItems_iff, sameFields_iff]

theorem sameItems_iff : ∀ xs ys : List Setting, sameItems xs ys = true ↔ xs = ys := by
  intro xs ys
  cases xs <;> cases ys <;> simp [sameItems, same_iff, sameItems_iff]

theorem sameFields_iff :
    ∀ fs gs : List (String × Setting), sameFields fs gs = true ↔ fs = gs := by
  intro fs gs
  cases fs with
  | nil => cases gs <;> simp [sameFields]
  | cons f fs =>
    obtain ⟨n, x⟩ := f
    cases gs with
    | nil => simp [sameFields]
    | cons g gs => simp [sameFields, same_iff, sameFields_iff, Prod.ext_iff, and_assoc]

end

instance : DecidableEq Setting := fun x y => decidable_of_iff _ (same_iff x y)

def fields : Setting → List (String × Setting)
  | table fields => fields
  | _ => []

def items : Setting → List Setting
  | array items => items
  | _ => []

def field? (s : Setting) (name : String) : Option Setting := s.fields.lookup name

/-- A value put in the place of an older one of the same name, or at the end. -/
def put (name : String) (value : Setting) : List (String × Setting) → List (String × Setting)
  | [] => [(name, value)]
  | (n, v) :: rest => if n = name then (n, value) :: rest else (n, v) :: put name value rest

theorem lookup_put_same (name : String) (value : Setting) (fields : List (String × Setting)) :
    (put name value fields).lookup name = some value := by
  induction fields with
  | nil => simp [put]
  | cons f rest ih =>
    obtain ⟨n, v⟩ := f
    simp only [put]
    split
    · rename_i h
      simp [h]
    · rename_i h
      simp [List.lookup_cons, beq_false_of_ne (Ne.symm h), ih]

theorem lookup_put_of_ne {name other : String} (h : other ≠ name) (value : Setting)
    (fields : List (String × Setting)) :
    (put name value fields).lookup other = fields.lookup other := by
  induction fields with
  | nil => simp [put, List.lookup_cons, beq_false_of_ne h]
  | cons f rest ih =>
    obtain ⟨n, v⟩ := f
    simp only [put]
    split
    · rename_i hn
      subst hn
      simp [List.lookup_cons, beq_false_of_ne h]
    · simp only [List.lookup_cons, ih]

/-- Null gives way to a table, even to an empty one. -/
def opened : Setting → Setting
  | null => table []
  | s => s

mutual

/-- A new value over an old one: tables are merged name by name, anything else replaces. -/
def overlay : Setting → Setting → Setting
  | old, table fields => overlayFields old.opened fields
  | _, null => null
  | _, bool b => bool b
  | _, int n => int n
  | _, float x => float x
  | _, text s => text s
  | _, array items => array items

def overlayFields : Setting → List (String × Setting) → Setting
  | base, [] => base
  | base, (name, value) :: rest =>
    overlayFields (table (put name (overlay ((base.field? name).getD null) value) base.fields)) rest

end

/-- A step of a path, into a table or into an array. -/
inductive Step
  | name (s : String)
  | index (i : Int)
  deriving DecidableEq, Repr

/-- Items with nulls added until there is one at the index, and its position. A negative index
counts from the end. -/
def makeRoom (items : List Setting) (i : Int) : List Setting × Nat :=
  if 0 ≤ i then (items ++ List.replicate (i.toNat + 1 - items.length) null, i.toNat)
  else if i.natAbs ≤ items.length then (items, items.length - i.natAbs)
  else (List.replicate (i.natAbs - items.length) null ++ items, 0)

/-- A value over what a path leads to. What is no table or no array, but should be one for a step of
the path, is replaced by an empty one. -/
def setAt : List Step → Setting → Setting → Setting
  | [], value, old => overlay old value
  | .name n :: path, value, old =>
    table (put n (setAt path value ((old.field? n).getD null)) old.fields)
  | .index i :: path, value, old =>
    let (items, position) := makeRoom old.items i
    array (items.modify position (setAt path value))

def isKeyChar (c : Char) : Bool := c.isAlphanum || c == '_' || c == '-'

/-- What stands in a subscript: an integer of 64 bits, with blanks around it. -/
def subscript? (cs : List Char) : Option Step :=
  let blank (c : Char) : Bool := c == ' ' || c == '\t'
  match (cs.dropWhile blank).reverse with
  | ']' :: rest =>
    match (rest.dropWhile blank).reverse with
    | '+' :: _ => none
    | digits => ((Text.integer? digits).filter Text.fitsInt64).map Step.index
  | _ => none

def subscripts? : List (List Char) → Option (List Step)
  | [] => some []
  | cs :: rest => (subscript? cs).bind fun i => (subscripts? rest).map (i :: ·)

/-- A name with subscripts behind it. -/
def steps? (cs : List Char) : Option (List Step) :=
  match Text.splitOnChar '[' cs with
  | [] => none
  | name :: rest =>
    if name ≠ [] ∧ name.all isKeyChar = true then
      (subscripts? rest).map (Step.name (String.ofList name) :: ·)
    else none

def path? : List (List Char) → Option (List Step)
  | [] => some []
  | cs :: rest => (steps? cs).bind fun first => (path? rest).map (first ++ ·)

/-- A key with points and subscripts is a path, as in `web.host` or `names[0]`; one that cannot be
read as a path is a single name. -/
def keyPath (key : String) : List Step :=
  (path? (Text.splitOnChar '.' key.toList)).getD [.name key]

/-- One source of settings, whose names may be paths, over what other sources gave. -/
def addLayer (base : Setting) (layer : List (String × Setting)) : Setting :=
  layer.foldl (fun acc f => setAt (keyPath f.1) f.2 acc) base

mutual

/-- Integers beyond the signed 64-bit ones become doubles. -/
def ofJson : Json → Setting
  | .null => null
  | .bool b => bool b
  | .number (.int n) =>
    if Text.fitsInt64 n then int n
    else float (match Double.ofInt? n with
      | some x => .finite x
      | none => .infinity (decide (n < 0)))
  | .number (.double x) => float (.finite x)
  | .text s => text s
  | .array items => array (ofItems items)
  | .object fields => table (ofFields fields)

def ofItems : List Json → List Setting
  | [] => []
  | x :: rest => ofJson x :: ofItems rest

def ofFields : List (String × Json) → List (String × Setting)
  | [] => []
  | (n, x) :: rest => (n, ofJson x) :: ofFields rest

end

/-- Numbers and truth values have a text. -/
def text? : Setting → Option String
  | text s => some s
  | bool b => some (if b then "true" else "false")
  | int n => some (Text.intText n)
  | float x => some (NumberLayout.plain.renderExtended x)
  | _ => none

def maxCount : Nat := UInt64.size - 1

/-- The nearest count; what is below or above the counts becomes the least or the greatest. -/
def countOfExtended : Extended → Nat
  | .finite x => min x.round.toNat maxCount
  | .infinity negative => if negative then 0 else maxCount
  | .nan => 0

def countOfText? (s : String) : Option Nat :=
  match Text.lowerAscii s with
  | "true" | "on" | "yes" => some 1
  | "false" | "off" | "no" => some 0
  | _ => Text.below? UInt64.size s

def count? : Setting → Option Nat
  | int n => if 0 ≤ n ∧ n < UInt64.size then some n.toNat else none
  | float x => some (countOfExtended x)
  | bool b => some (if b then 1 else 0)
  | text s => countOfText? s
  | _ => none

def countBelow? (bound : Nat) (s : Setting) : Option Nat := s.count?.filter (· < bound)

/-- A word by its text, or as the only name of a table. -/
def word? {α : Type} (ofWord? : String → Option α) : Setting → Option α
  | text s => ofWord? s
  | table [(name, _)] => ofWord? name
  | _ => none

/-- A part of a section, which is a table or lists its parts in order. -/
def part? (s : Setting) (index : Nat) (name : String) : Option Setting :=
  match s with
  | table fields => fields.lookup name
  | array items => items[index]?
  | _ => none

/-- A part that may be null, and in a table may be absent. -/
def optionalPart? {α : Type} (read : Setting → Option α) (s : Setting) (index : Nat)
    (name : String) : Option (Option α) :=
  match s.part? index name, s with
  | none, table _ => some none
  | none, _ => none
  | some null, _ => some none
  | some value, _ => (read value).map some

end Setting
end PanelSource
