import Mathlib.Data.List.Induction
import Mathlib.Data.List.Nodup
import PanelSource.Result.Table

/-! # What grouping keeps: the order of keys, the order of rows, and every row

Groups built row by row are the distinct keys in the order of their first rows, and each holds the
numbers of exactly the rows with its key, in ascending order. -/
namespace PanelSource

section FirstOccurrences
variable {α : Type} [BEq α] [LawfulBEq α]

theorem eraseDups_concat_of_mem {xs : List α} {a : α} (h : a ∈ xs) :
    (xs ++ [a]).eraseDups = xs.eraseDups := by
  simp [List.eraseDups_append, List.removeAll, h]

theorem eraseDups_concat_of_not_mem {xs : List α} {a : α} (h : a ∉ xs) :
    (xs ++ [a]).eraseDups = xs.eraseDups ++ [a] := by
  simp [List.eraseDups_append, List.removeAll, h, List.eraseDups_cons]

theorem nodup_eraseDups (xs : List α) : xs.eraseDups.Nodup := by
  induction xs using List.reverseRecOn with
  | nil => simp
  | append_singleton xs a ih =>
    by_cases h : a ∈ xs
    · rwa [eraseDups_concat_of_mem h]
    · rw [eraseDups_concat_of_not_mem h]
      exact ih.append (List.nodup_singleton a) (by simpa using h)

end FirstOccurrences

/-- Elements looked up by all their numbers. -/
theorem filterMap_range_bind {α β : Type} (f : α → Option β) (xs : List α) :
    (List.range xs.length).filterMap (fun r => (xs[r]?).bind f) = xs.filterMap f := by
  have hall : (List.range xs.length).map (fun r => xs[r]?) = xs.map some := by
    apply List.ext_getElem?
    intro r
    by_cases hr : r < xs.length <;> simp [hr]
  calc (List.range xs.length).filterMap (fun r => (xs[r]?).bind f)
      = ((List.range xs.length).map (fun r => xs[r]?)).filterMap (fun x => x.bind f) := by
        rw [List.filterMap_map]
        rfl
    _ = xs.filterMap f := by
        rw [hall, List.filterMap_map]
        rfl

/-- The numbers of the rows with a key, in ascending order. -/
def rowsWith (keys : List GroupKey) (key : GroupKey) : List Nat :=
  (List.range keys.length).filter fun r => keys[r]? == some key

theorem mem_rowsWith {keys : List GroupKey} {key : GroupKey} {r : Nat} :
    r ∈ rowsWith keys key ↔ keys[r]? = some key := by
  simp only [rowsWith, List.mem_filter, List.mem_range, beq_iff_eq]
  constructor
  · exact fun h => h.2
  · intro h
    exact ⟨(List.getElem?_eq_some_iff.mp h).1, h⟩

theorem nodup_rowsWith (keys : List GroupKey) (key : GroupKey) : (rowsWith keys key).Nodup :=
  List.nodup_range.filter _

theorem rowsWith_concat (keys : List GroupKey) (key k : GroupKey) :
    rowsWith (keys ++ [key]) k = rowsWith keys k ++ if key = k then [keys.length] else [] := by
  have hold : (List.range keys.length).filter (fun r => (keys ++ [key])[r]? == some k) =
      rowsWith keys k := by
    apply List.filter_congr
    intro r hr
    rw [List.getElem?_append_left (List.mem_range.mp hr)]
  simp only [rowsWith, List.length_append, List.length_singleton, List.range_succ,
    List.filter_append, hold]
  by_cases h : key = k <;> simp [h]

theorem rowsWith_eq_nil {keys : List GroupKey} {key : GroupKey} (h : key ∉ keys) :
    rowsWith keys key = [] := by
  rw [List.eq_nil_iff_forall_not_mem]
  intro r hr
  exact h (List.mem_of_getElem? (mem_rowsWith.mp hr))

namespace Groups

/-- The groups of rows with the given keys: one for each distinct key, holding all its rows. -/
structure Grouped (keys : List GroupKey) (g : Groups) : Prop where
  keys_eq : g.map Prod.fst = keys.eraseDups
  rows_eq : ∀ group ∈ g, group.2 = rowsWith keys group.1

theorem grouped_nil : Grouped [] [] := ⟨rfl, by simp⟩

/-- A new key opens a group behind all others. -/
theorem add_of_not_mem {g : Groups} {key : GroupKey} (row : Nat) (h : key ∉ g.map Prod.fst) :
    g.add key row = g ++ [(key, [row])] := by
  induction g with
  | nil => rfl
  | cons group rest ih =>
    obtain ⟨k, rows⟩ := group
    simp only [List.map_cons, List.mem_cons, not_or] at h
    simp [add, Ne.symm h.1, ih h.2]

/-- A key that is there keeps its place. -/
theorem map_fst_add_of_mem {g : Groups} {key : GroupKey} (row : Nat) (h : key ∈ g.map Prod.fst) :
    (g.add key row).map Prod.fst = g.map Prod.fst := by
  induction g with
  | nil => simp at h
  | cons group rest ih =>
    obtain ⟨k, rows⟩ := group
    by_cases hk : k = key
    · simp [add, hk]
    · have hrest : key ∈ rest.map Prod.fst := by simpa [Ne.symm hk] using h
      simp [add, hk, ih hrest]

/-- Of distinct keys only the one that is added to gets the row, behind its others. -/
theorem mem_add_of_mem {g : Groups} {key : GroupKey} {row : Nat} {group : GroupKey × List Nat}
    (hd : (g.map Prod.fst).Nodup) (h : key ∈ g.map Prod.fst) (hm : group ∈ g.add key row) :
    ∃ old ∈ g, group = (old.1, old.2 ++ if key = old.1 then [row] else []) := by
  induction g with
  | nil => simp at h
  | cons first rest ih =>
    obtain ⟨k, rows⟩ := first
    simp only [List.map_cons, List.nodup_cons] at hd
    by_cases hk : k = key
    · subst hk
      simp only [add, if_true, List.mem_cons] at hm
      rcases hm with rfl | hm
      · exact ⟨(k, rows), by simp, by simp⟩
      · have hne : k ≠ group.1 := fun he => hd.1 (he ▸ List.mem_map_of_mem hm)
        exact ⟨group, by simp [hm], by simp [hne]⟩
    · have hrest : key ∈ rest.map Prod.fst := by simpa [Ne.symm hk] using h
      simp only [add, hk, if_false, List.mem_cons] at hm
      rcases hm with rfl | hm
      · exact ⟨(k, rows), by simp, by simp [Ne.symm hk]⟩
      · obtain ⟨old, ho, he⟩ := ih hd.2 hrest hm
        exact ⟨old, by simp [ho], he⟩

/-- One row more. -/
theorem Grouped.add {keys : List GroupKey} {g : Groups} (h : Grouped keys g) (key : GroupKey) :
    Grouped (keys ++ [key]) (g.add key keys.length) := by
  have hmem : key ∈ g.map Prod.fst ↔ key ∈ keys := by rw [h.keys_eq, List.mem_eraseDups]
  by_cases hk : key ∈ keys
  · have hg := hmem.mpr hk
    refine ⟨?_, ?_⟩
    · rw [map_fst_add_of_mem _ hg, h.keys_eq, eraseDups_concat_of_mem hk]
    · intro group hgroup
      have hd : (g.map Prod.fst).Nodup := h.keys_eq ▸ nodup_eraseDups keys
      obtain ⟨old, ho, rfl⟩ := mem_add_of_mem hd hg hgroup
      rw [rowsWith_concat, h.rows_eq old ho]
  · rw [add_of_not_mem _ (mt hmem.mp hk)]
    refine ⟨?_, ?_⟩
    · simp [h.keys_eq, eraseDups_concat_of_not_mem hk]
    · intro group hgroup
      rw [rowsWith_concat]
      rcases List.mem_append.mp hgroup with hgroup | hgroup
      · have hne : key ≠ group.1 := fun he => hk (hmem.mp (he ▸ List.mem_map_of_mem hgroup))
        simp [h.rows_eq group hgroup, hne]
      · rw [List.mem_singleton.mp hgroup]
        simp [rowsWith_eq_nil hk]

/-- Any number of rows more. -/
theorem Grouped.addAll {keys : List GroupKey} {g : Groups} (h : Grouped keys g)
    (more : List GroupKey) : Grouped (keys ++ more) (g.addAll keys.length more) := by
  induction more generalizing keys g with
  | nil => simpa [Groups.addAll] using h
  | cons key more ih => simpa [Groups.addAll] using ih (h.add key)

theorem grouped_ofKeys (keys : List GroupKey) : Grouped keys (ofKeys keys) := by
  simpa [ofKeys] using grouped_nil.addAll keys

theorem Grouped.length_eq {keys : List GroupKey} {g : Groups} (h : Grouped keys g) :
    g.length = keys.eraseDups.length := by
  rw [← h.keys_eq, List.length_map]

theorem Grouped.getElem?_eq {keys : List GroupKey} {g : Groups} (h : Grouped keys g) {i : Nat}
    {key : GroupKey} (hi : keys.eraseDups[i]? = some key) :
    g[i]? = some (key, rowsWith keys key) := by
  rw [← h.keys_eq, List.getElem?_map, Option.map_eq_some_iff] at hi
  obtain ⟨group, hg, rfl⟩ := hi
  rw [hg, ← h.rows_eq group (List.mem_of_getElem? hg)]

end Groups
end PanelSource
