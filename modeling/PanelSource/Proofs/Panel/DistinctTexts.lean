import PanelSource.Panel.Service
import PanelSource.Proofs.Json.Rendering
import PanelSource.Proofs.Result.Grouping

/-! # Texts of a table, each once

Suggestions are the texts of all cells but the nulls. Each text stands once, in the order in which
the cells, read row by row, have it first. -/
namespace PanelSource

section FirstPlaces
variable {ι α : Type} {earlier : ι → ι → Prop} {xs : List (ι × α)} {x last : ι × α}

/-- An element stands at no earlier place of a list that names a place for each of its elements. -/
def FirstIn (earlier : ι → ι → Prop) (xs : List (ι × α)) (x : ι × α) : Prop :=
  x ∈ xs ∧ ∀ q, (q, x.2) ∈ xs → ¬earlier q x.1

variable [Std.Asymm earlier]

theorem FirstIn.concat (h : FirstIn earlier xs x) (hlast : ∀ y ∈ xs, earlier y.1 last.1) :
    FirstIn earlier (xs ++ [last]) x := by
  refine ⟨List.mem_append_left _ h.1, fun q hq => ?_⟩
  rcases List.mem_append.mp hq with hq | hq
  · exact h.2 q hq
  · obtain rfl : (q, x.2) = last := List.mem_singleton.mp hq
    exact Std.Asymm.asymm _ _ (hlast x h.1)

theorem firstIn_concat_of_not_mem (h : last.2 ∉ xs.map Prod.snd) :
    FirstIn earlier (xs ++ [last]) last := by
  refine ⟨List.mem_append_right _ (List.mem_singleton_self _), fun q hq hearlier => ?_⟩
  rcases List.mem_append.mp hq with hq | hq
  · exact h (List.mem_map.mpr ⟨_, hq, rfl⟩)
  · obtain rfl : q = last.1 := congrArg Prod.fst (List.mem_singleton.mp hq)
    exact Std.Asymm.asymm _ _ hearlier hearlier

/-- In a list whose places ascend, the elements without repetitions are those at their first
places. -/
theorem exists_firsts [BEq α] [LawfulBEq α] (h : xs.Pairwise fun x y => earlier x.1 y.1) :
    ∃ firsts : List (ι × α), firsts.Sublist xs ∧
      firsts.map Prod.snd = (xs.map Prod.snd).eraseDups ∧ ∀ x ∈ firsts, FirstIn earlier xs x := by
  induction xs using List.reverseRecOn with
  | nil => exact ⟨[], .slnil, rfl, nofun⟩
  | append_singleton xs last ih =>
    obtain ⟨hxs, -, hlast⟩ := List.pairwise_append.mp h
    have hlast (y : ι × α) (hy : y ∈ xs) : earlier y.1 last.1 := hlast y hy last (by simp)
    obtain ⟨firsts, hsub, hsnd, hfirsts⟩ := ih hxs
    have hkept (x : ι × α) (hx : x ∈ firsts) : FirstIn earlier (xs ++ [last]) x :=
      (hfirsts x hx).concat hlast
    rw [List.map_append, List.map_singleton]
    by_cases hmem : last.2 ∈ xs.map Prod.snd
    · rw [eraseDups_concat_of_mem hmem]
      exact ⟨firsts, hsub.trans (List.sublist_append_left xs [last]), hsnd, hkept⟩
    · rw [eraseDups_concat_of_not_mem hmem]
      refine ⟨firsts ++ [last], hsub.append (List.Sublist.refl _), ?_, ?_⟩
      · rw [List.map_append, List.map_singleton, hsnd]
      · rw [List.forall_mem_append]
        exact ⟨hkept, by simpa using firstIn_concat_of_not_mem hmem⟩

theorem eraseDups_of_nodup [BEq α] [LawfulBEq α] {as : List α} (h : as.Nodup) :
    as.eraseDups = as := by
  induction as using List.reverseRecOn with
  | nil => rfl
  | append_singleton as a ih =>
    obtain ⟨has, -, hnew⟩ := List.nodup_append.mp h
    have hnew : a ∉ as := fun ha => hnew a ha a (List.mem_singleton_self a) rfl
    rw [eraseDups_concat_of_not_mem hnew, ih has]

end FirstPlaces

/-- Places are numbers of rows and of cells in them. They are read row by row. -/
def ReadBefore (p q : Nat × Nat) : Prop := p.1 < q.1 ∨ p.1 = q.1 ∧ p.2 < q.2

instance : Std.Asymm ReadBefore := ⟨by
  rintro p q (h | ⟨h, h'⟩) (g | ⟨g, g'⟩) <;> omega⟩

theorem Json.cellText_eq_empty_iff {c : Json} : c.cellText = "" ↔ c = .text "" := by
  cases c with
  | text s => simp [cellText]
  | _ => simp [cellText, render_ne_empty]

namespace Table

/-- The cell at a place has a text and is not null. -/
def Shows (t : Table) (p : Nat × Nat) (s : String) : Prop :=
  ∃ row c, t.rows[p.1]? = some row ∧ row[p.2]? = some c ∧ c.isNull = false ∧ c.cellText = s

/-- No cell that is read before shows the text. -/
def FirstShows (t : Table) (p : Nat × Nat) (s : String) : Prop :=
  t.Shows p s ∧ ∀ q, t.Shows q s → ¬ReadBefore q p

/-- The texts of a row at their places. -/
def shownInRow (i : Nat) (row : List Json) : List ((Nat × Nat) × String) :=
  (row.zipIdx.filter fun c => !c.1.isNull).map fun c => ((i, c.2), c.1.cellText)

def shown (t : Table) : List ((Nat × Nat) × String) :=
  t.rows.zipIdx.flatMap fun r => shownInRow r.2 r.1

theorem mem_shownInRow {i : Nat} {row : List Json} {p : Nat × Nat} {s : String} :
    (p, s) ∈ shownInRow i row ↔
      p.1 = i ∧ ∃ c, row[p.2]? = some c ∧ c.isNull = false ∧ c.cellText = s := by
  obtain ⟨k, j⟩ := p
  simp only [shownInRow, List.mem_map, List.mem_filter, List.mem_zipIdx_iff_getElem?, Prod.exists,
    Prod.mk.injEq, Bool.not_eq_true']
  constructor
  · rintro ⟨c, _, ⟨hc, hnull⟩, ⟨rfl, rfl⟩, hs⟩
    exact ⟨rfl, c, hc, hnull, hs⟩
  · rintro ⟨rfl, c, hc, hnull, hs⟩
    exact ⟨c, j, ⟨hc, hnull⟩, ⟨rfl, rfl⟩, hs⟩

theorem mem_shown {t : Table} {p : Nat × Nat} {s : String} : (p, s) ∈ t.shown ↔ t.Shows p s := by
  simp only [shown, List.mem_flatMap, List.mem_zipIdx_iff_getElem?, mem_shownInRow, Prod.exists,
    Shows]
  constructor
  · rintro ⟨row, i, hrow, rfl, c, hc⟩
    exact ⟨row, c, hrow, hc⟩
  · rintro ⟨row, c, hrow, hc⟩
    exact ⟨row, p.1, hrow, rfl, c, hc⟩

theorem map_snd_shownInRow (i : Nat) (row : List Json) :
    (shownInRow i row).map Prod.snd = (row.filter fun c => !c.isNull).map Json.cellText := by
  conv_rhs => rw [← List.zipIdx_map_fst 0 row, List.filter_map]
  simp [shownInRow, Function.comp_def]

theorem suggestions_eq (t : Table) : t.suggestions = (t.shown.map Prod.snd).eraseDups := by
  have hrows : t.rows.zipIdx.flatMap (fun r => (r.1.filter fun c => !c.isNull).map Json.cellText) =
      t.rows.flatMap fun row => (row.filter fun c => !c.isNull).map Json.cellText := by
    conv_rhs => rw [← List.zipIdx_map_fst 0 t.rows, List.flatMap_map]
  rw [suggestions, shown, List.map_flatMap]
  simp only [map_snd_shownInRow]
  rw [hrows, List.filter_flatten, List.map_flatten, List.map_map, List.flatMap_def]
  rfl

theorem pairwise_zipIdx {α : Type} (xs : List α) : xs.zipIdx.Pairwise fun x y => x.2 < y.2 := by
  have hrange := List.pairwise_lt_range' (s := 0) (n := xs.length)
  rwa [← List.zipIdx_map_snd, List.pairwise_map] at hrange

theorem pairwise_shown (t : Table) : t.shown.Pairwise fun x y => ReadBefore x.1 y.1 := by
  refine List.pairwise_flatMap.mpr ⟨fun r _ => ?_, (pairwise_zipIdx t.rows).imp ?_⟩
  · rw [shownInRow, List.pairwise_map]
    exact ((pairwise_zipIdx r.1).filter _).imp fun hlt => .inr ⟨rfl, hlt⟩
  · rintro ⟨row, i⟩ ⟨row', i'⟩ hlt ⟨p, s⟩ hp ⟨q, s'⟩ hq
    obtain ⟨rfl, -⟩ := mem_shownInRow.mp hp
    obtain ⟨rfl, -⟩ := mem_shownInRow.mp hq
    exact .inl hlt

theorem suggestions_texts (column : String) (ss : List String) :
    suggestions ⟨[column], ss.map fun s => [.text s]⟩ = ss.eraseDups := by
  have hcells : (ss.map fun s => [Json.text s]).flatten = ss.map Json.text := by
    rw [← List.flatMap_def, ← List.map_eq_flatMap]
  have hnulls : (ss.map Json.text).filter (fun c => !c.isNull) = ss.map Json.text := by
    simp [List.filter_eq_self, Json.isNull]
  rw [suggestions, hcells, hnulls, List.map_map]
  exact congrArg List.eraseDups (List.map_id ss)

theorem mem_suggestions {t : Table} {s : String} :
    s ∈ t.suggestions ↔ ∃ row ∈ t.rows, ∃ c ∈ row, c.isNull = false ∧ c.cellText = s := by
  simp only [suggestions, List.mem_eraseDups, List.mem_map, List.mem_filter, List.mem_flatten,
    Bool.not_eq_true']
  constructor
  · rintro ⟨c, ⟨⟨row, hrow, hc⟩, hnull⟩, hs⟩
    exact ⟨row, hrow, c, hc, hnull, hs⟩
  · rintro ⟨row, hrow, c, hc, hnull, hs⟩
    exact ⟨c, ⟨⟨row, hrow, hc⟩, hnull⟩, hs⟩

/-- Suggestions are the texts of the cells but the nulls, each once, in the order in which they are
first read. Suggested again they stay as they are. The empty text is one where it is a cell. -/
theorem suggestions_firstTexts (t : Table) :
    t.suggestions.Nodup ∧
      (∀ s, s ∈ t.suggestions ↔
        ∃ row ∈ t.rows, ∃ c ∈ row, c.isNull = false ∧ c.cellText = s) ∧
      (∃ firsts : List ((Nat × Nat) × String), firsts.map Prod.snd = t.suggestions ∧
        (∀ x ∈ firsts, t.FirstShows x.1 x.2) ∧ firsts.Pairwise fun x y => ReadBefore x.1 y.1) ∧
      (∀ column, suggestions ⟨[column], t.suggestions.map fun s => [.text s]⟩ = t.suggestions) ∧
      ("" ∈ t.suggestions ↔ ∃ row ∈ t.rows, .text "" ∈ row) := by
  have hnodup : t.suggestions.Nodup := nodup_eraseDups _
  refine ⟨hnodup, fun s => mem_suggestions, ?_, fun column => ?_, ?_⟩
  · obtain ⟨firsts, hsub, hsnd, hfirsts⟩ := exists_firsts t.pairwise_shown
    refine ⟨firsts, hsnd.trans t.suggestions_eq.symm, fun x hx => ?_, t.pairwise_shown.sublist hsub⟩
    obtain ⟨hmem, hfirst⟩ := hfirsts x hx
    exact ⟨mem_shown.mp hmem, fun q hq => hfirst q (mem_shown.mpr hq)⟩
  · rw [suggestions_texts, eraseDups_of_nodup hnodup]
  · rw [mem_suggestions]
    constructor
    · rintro ⟨row, hrow, c, hc, -, hs⟩
      exact ⟨row, hrow, Json.cellText_eq_empty_iff.mp hs ▸ hc⟩
    · rintro ⟨row, hrow, hc⟩
      exact ⟨row, hrow, _, hc, rfl, rfl⟩

end Table
end PanelSource
