import PanelSource.Json.Outline
import PanelSource.Proofs.Stages

/-! # Objects with their fields in order

What is read has the fields of its objects in the order of their names, each name once, and such a
value is read back as it is. -/
namespace PanelSource.Json

/-- The names ascend. -/
def Sorted (fields : List (String × Json)) : Prop := fields.Pairwise fun f g => f.1 < g.1

/-- All objects in a value have their fields in order. -/
inductive Ordered : Json → Prop
  | null : Ordered .null
  | bool (b : Bool) : Ordered (.bool b)
  | number (x : Number) : Ordered (.number x)
  | text (s : String) : Ordered (.text s)
  | array {items : List Json} (h : ∀ x ∈ items, Ordered x) : Ordered (.array items)
  | object {fields : List (String × Json)} (hsorted : Sorted fields)
      (h : ∀ f ∈ fields, Ordered f.2) : Ordered (.object fields)

section
variable {name : String} {value : Json} {fields : List (String × Json)}

theorem mem_insertField {f : String × Json} (h : f ∈ insertField name value fields) :
    f = (name, value) ∨ f ∈ fields := by
  induction fields with
  | nil => exact .inl (List.mem_singleton.mp h)
  | cons g rest ih =>
    obtain ⟨n, v⟩ := g
    simp only [insertField] at h
    split at h
    · exact List.mem_cons.mp h
    · split at h
      · rcases List.mem_cons.mp h with h | h
        · exact .inl h
        · exact .inr (List.mem_cons_of_mem _ h)
      · rcases List.mem_cons.mp h with h | h
        · exact .inr (List.mem_cons.mpr (.inl h))
        · exact (ih h).imp_right (List.mem_cons_of_mem _)

theorem Sorted.insertField (h : Sorted fields) : Sorted (insertField name value fields) := by
  induction fields with
  | nil => exact List.pairwise_singleton _ _
  | cons g rest ih =>
    obtain ⟨n, v⟩ := g
    obtain ⟨hfirst, hrest⟩ := List.pairwise_cons.mp h
    simp only [Json.insertField]
    split
    case isTrue hlt =>
      refine List.pairwise_cons.mpr ⟨?_, h⟩
      rintro f hf
      rcases List.mem_cons.mp hf with rfl | hf
      · exact hlt
      · exact String.lt_trans hlt (hfirst f hf)
    case isFalse hlt =>
      split
      case isTrue heq => exact List.pairwise_cons.mpr ⟨heq ▸ hfirst, hrest⟩
      case isFalse hne =>
        refine List.pairwise_cons.mpr ⟨fun f hf => ?_, ih hrest⟩
        rcases mem_insertField hf with rfl | hf
        · refine Decidable.byContradiction fun hgt => hne ?_
          exact String.le_antisymm (String.not_lt.mp hgt) (String.not_lt.mp hlt)
        · exact hfirst f hf

/-- A name behind all others goes to the end. -/
theorem insertField_of_lt (h : ∀ f ∈ fields, f.1 < name) :
    insertField name value fields = fields ++ [(name, value)] := by
  induction fields with
  | nil => rfl
  | cons g rest ih =>
    obtain ⟨n, v⟩ := g
    obtain ⟨hlt, hrest⟩ := List.forall_mem_cons.mp h
    have hgt : ¬name < n := String.lt_asymm hlt
    have hne : name ≠ n := fun heq => String.lt_irrefl _ (heq ▸ hlt)
    rw [insertField, if_neg hgt, if_neg hne, ih hrest, List.cons_append]

end

/-- Fields put at their places one after the other. -/
def insertFields (fields more : List (String × Json)) : List (String × Json) :=
  more.foldl (fun acc f => insertField f.1 f.2 acc) fields

theorem ofFields_eq (fields : List (String × Json)) :
    ofFields fields = .object (insertFields [] fields) := rfl

theorem insertFields_cons (fields more : List (String × Json)) (f : String × Json) :
    insertFields fields (f :: more) = insertFields (insertField f.1 f.2 fields) more := rfl

theorem mem_insertFields {fields more : List (String × Json)} {f : String × Json}
    (h : f ∈ insertFields fields more) : f ∈ fields ∨ f ∈ more := by
  induction more generalizing fields with
  | nil => exact .inl h
  | cons g more ih =>
    rcases ih h with h | h
    · rcases mem_insertField h with rfl | h
      · exact .inr List.mem_cons_self
      · exact .inl h
    · exact .inr (List.mem_cons_of_mem _ h)

theorem Sorted.insertFields {fields : List (String × Json)} (h : Sorted fields)
    (more : List (String × Json)) : Sorted (insertFields fields more) := by
  induction more generalizing fields with
  | nil => exact h
  | cons g more ih => exact ih h.insertField

/-- Fields in order stay as they are. -/
theorem insertFields_of_sorted {fields more : List (String × Json)} (h : Sorted (fields ++ more)) :
    insertFields fields more = fields ++ more := by
  induction more generalizing fields with
  | nil => exact (List.append_nil fields).symm
  | cons g more ih =>
    have hlt : ∀ f ∈ fields, f.1 < g.1 := fun f hf =>
      (List.pairwise_append.mp h).2.2 f hf g List.mem_cons_self
    rw [List.append_cons] at h ⊢
    rw [insertFields_cons, insertField_of_lt hlt, ih h]

theorem lookup_insertFields_of_not_mem {fields more : List (String × Json)} {name : String}
    (h : name ∉ more.map Prod.fst) :
    (insertFields fields more).lookup name = fields.lookup name := by
  induction more generalizing fields with
  | nil => rfl
  | cons g more ih =>
    rw [List.map_cons, List.mem_cons, not_or] at h
    rw [insertFields_cons, ih h.2, lookup_insertField_of_ne h.1]

/-- Of fields with different names each is found. -/
theorem lookup_insertFields {fields more : List (String × Json)} {f : String × Json}
    (hmore : (more.map Prod.fst).Nodup) (hf : f ∈ more) :
    (insertFields fields more).lookup f.1 = some f.2 := by
  induction more generalizing fields with
  | nil => exact absurd hf List.not_mem_nil
  | cons g more ih =>
    obtain ⟨hg, hmore⟩ := List.nodup_cons.mp hmore
    rw [insertFields_cons]
    rcases List.mem_cons.mp hf with rfl | hf
    · rw [lookup_insertFields_of_not_mem hg, lookup_insertField_same]
    · exact ih hmore hf

theorem Ordered.ofFields {fields : List (String × Json)} (h : ∀ f ∈ fields, Ordered f.2) :
    Ordered (ofFields fields) := by
  refine .object (Sorted.insertFields .nil fields) fun f hf => ?_
  rcases mem_insertFields hf with hf | hf
  · exact absurd hf List.not_mem_nil
  · exact h f hf

end Json

namespace Outline
open Json (Ordered Sorted)

mutual

theorem ordered_of_toJson {x : Json} : ∀ {o : Outline}, o.toJson = .ok x → x.Ordered
  | .null, h => by
    cases h
    exact .null
  | .bool b, h => by
    cases h
    exact .bool b
  | .number (some n), h => by
    cases h
    exact .number n
  | .text (some s), h => by
    cases h
    exact .text s
  | .array depth items, h => by
    rw [toJson] at h
    split at h
    · cases h
    · obtain ⟨xs, hxs, rfl⟩ := Outcome.map_eq_ok_iff.mp h
      exact .array (ordered_of_itemsToJson hxs)
  | .object depth fields, h => by
    rw [toJson] at h
    split at h
    · cases h
    · obtain ⟨fs, hfs, rfl⟩ := Outcome.map_eq_ok_iff.mp h
      exact .ofFields (ordered_of_fieldsToJson hfs)

theorem ordered_of_itemsToJson {xs : List Json} :
    ∀ {items : List Outline}, itemsToJson items = .ok xs → ∀ x ∈ xs, x.Ordered
  | [], h => by
    cases h
    exact nofun
  | o :: items, h => by
    obtain ⟨x, hx, h⟩ := Outcome.bind_eq_ok_iff.mp h
    obtain ⟨xs, hxs, h⟩ := Outcome.bind_eq_ok_iff.mp h
    cases h
    exact List.forall_mem_cons.mpr ⟨ordered_of_toJson hx, ordered_of_itemsToJson hxs⟩

theorem ordered_of_fieldsToJson {fs : List (String × Json)} :
    ∀ {fields : List (Option String × Outline)}, fieldsToJson fields = .ok fs →
      ∀ f ∈ fs, f.2.Ordered
  | [], h => by
    cases h
    exact nofun
  | (none, _) :: _, h => by cases h
  | (some n, o) :: fields, h => by
    obtain ⟨x, hx, h⟩ := Outcome.bind_eq_ok_iff.mp h
    obtain ⟨fs, hfs, h⟩ := Outcome.bind_eq_ok_iff.mp h
    cases h
    exact List.forall_mem_cons.mpr ⟨ordered_of_toJson hx, ordered_of_fieldsToJson hfs⟩

end

theorem itemsToJson_ofItems {xs : List Json} (h : ∀ x ∈ xs, (ofJson x).toJson = .ok x) :
    itemsToJson (ofItems xs) = .ok xs := by
  induction xs with
  | nil => rfl
  | cons x xs ih =>
    obtain ⟨hx, hxs⟩ := List.forall_mem_cons.mp h
    rw [ofItems, itemsToJson, hx, ih hxs]
    rfl

theorem fieldsToJson_ofFields {fs : List (String × Json)}
    (h : ∀ f ∈ fs, (ofJson f.2).toJson = .ok f.2) : fieldsToJson (ofFields fs) = .ok fs := by
  induction fs with
  | nil => rfl
  | cons f fs ih =>
    obtain ⟨hf, hfs⟩ := List.forall_mem_cons.mp h
    rw [ofFields, fieldsToJson, hf, ih hfs]
    rfl

/-- A value in order is read back. -/
theorem toJson_ofJson {x : Json} (h : x.Ordered) : (ofJson x).toJson = .ok x := by
  induction h with
  | null => rfl
  | bool b => rfl
  | number x => rfl
  | text s => rfl
  | array _ ih =>
    rw [ofJson, toJson, if_neg (by decide), itemsToJson_ofItems ih]
    rfl
  | object hsorted _ ih =>
    rw [ofJson, toJson, if_neg (by decide), fieldsToJson_ofFields ih]
    exact congrArg (fun fs => Except.ok (Json.object fs)) (Json.insertFields_of_sorted hsorted)

end Outline
end PanelSource
