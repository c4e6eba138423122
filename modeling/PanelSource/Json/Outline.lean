import PanelSource.Json.Basic

/-! # What a JSON text says, as far as it can be read

A text is scanned once, from its start, into an outline. What cannot be read as a value but has an
end is a leaf without content; where the text stops being JSON the outline has a `broken` leaf and
nothing after it. A reader of the outline, which goes through it in the order of the text, meets
either a value of the wrong shape or the broken leaf first, and so tells the two faults apart. -/
namespace PanelSource

/-- Why a text or a value was not accepted. -/
inductive Fault
  | malformed
  | shape
  deriving DecidableEq, Repr

/-- A number is empty when it is beyond the doubles, a text when its escapes name no character. A
container knows how many containers it lies in, itself included. -/
inductive Outline
  | null
  | bool (b : Bool)
  | number (x : Option Number)
  | text (s : Option String)
  | array (depth : Nat) (items : List Outline)
  | object (depth : Nat) (fields : List (Option String × Outline))
  | broken

namespace Outline

mutual

def same : Outline → Outline → Bool
  | null, null | broken, broken => true
  | bool b, bool b' => b == b'
  | number x, number x' => x == x'
  | text s, text s' => s == s'
  | array depth items, array depth' items' => depth == depth' && sameItems items items'
  | object depth fields, object depth' fields' => depth == depth' && sameFields fields fields'
  | _, _ => false

def sameItems : List Outline → List Outline → Bool
  | [], [] => true
  | x :: items, x' :: items' => same x x' && sameItems items items'
  | _, _ => false

def sameFields : List (Option String × Outline) → List (Option String × Outline) → Bool
  | [], [] => true
  | (n, x) :: fields, (n', x') :: fields' => n == n' && same x x' && sameFields fields fields'
  | _, _ => false

end

mutual

theorem same_iff : ∀ x y : Outline, same x y = true ↔ x = y := by
  intro x y
  cases x <;> cases y <;> simp [same, sameItems_iff, sameFields_iff]

theorem sameItems_iff : ∀ xs ys : List Outline, sameItems xs ys = true ↔ xs = ys := by
  intro xs ys
  cases xs <;> cases ys <;> simp [sameItems, same_iff, sameItems_iff]

theorem sameFields_iff :
    ∀ fs gs : List (Option String × Outline), sameFields fs gs = true ↔ fs = gs := by
  intro fs gs
  cases fs with
  | nil => cases gs <;> simp [sameFields]
  | cons f fs =>
    obtain ⟨n, x⟩ := f
    cases gs with
    | nil => simp [sameFields]
    | cons g gs => simp [sameFields, same_iff, sameFields_iff, Prod.ext_iff, and_assoc]

end

instance : DecidableEq Outline := fun x y => decidable_of_iff _ (same_iff x y)

/-- Containers may be read down to this depth. -/
def depthLimit : Nat := 127

mutual

def ofJson : Json → Outline
  | .null => .null
  | .bool b => .bool b
  | .number x => .number (some x)
  | .text s => .text (some s)
  | .array items => .array 0 (ofItems items)
  | .object fields => .object 0 (ofFields fields)

def ofItems : List Json → List Outline
  | [] => []
  | x :: rest => ofJson x :: ofItems rest

def ofFields : List (String × Json) → List (Option String × Outline)
  | [] => []
  | (n, v) :: rest => (some n, ofJson v) :: ofFields rest

end

mutual

/-- Nothing broken inside; enough for a value that nobody reads. -/
def sound : Outline → Bool
  | .array _ items => soundItems items
  | .object _ fields => soundFields fields
  | .broken => false
  | _ => true

def soundItems : List Outline → Bool
  | [] => true
  | x :: rest => x.sound && soundItems rest

def soundFields : List (Option String × Outline) → Bool
  | [] => true
  | (_, v) :: rest => v.sound && soundFields rest

end

/-- The fault of a value that has another shape than the one wanted: a leaf is read before it is
refused, a container is not. -/
def mismatch : Outline → Fault
  | .number none | .text none | .broken => .malformed
  | _ => .shape

mutual

def toJson : Outline → Except Fault Json
  | .null => .ok .null
  | .bool b => .ok (.bool b)
  | .number (some x) => .ok (.number x)
  | .text (some s) => .ok (.text s)
  | .array depth items =>
    if depthLimit < depth then .error .malformed else (itemsToJson items).map .array
  | .object depth fields =>
    if depthLimit < depth then .error .malformed else (fieldsToJson fields).map Json.ofFields
  | _ => .error .malformed

def itemsToJson : List Outline → Except Fault (List Json)
  | [] => .ok []
  | x :: rest => do return (← x.toJson) :: (← itemsToJson rest)

def fieldsToJson : List (Option String × Outline) → Except Fault (List (String × Json))
  | [] => .ok []
  | (none, _) :: _ => .error .malformed
  | (some n, v) :: rest => do return (n, ← v.toJson) :: (← fieldsToJson rest)

end

end Outline
end PanelSource
