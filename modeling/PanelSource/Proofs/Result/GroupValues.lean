import Mathlib.Data.Set.Card
import PanelSource.Proofs.Json.Rendering
import PanelSource.Proofs.Result.FanOut

/-! # Series by the values of grouping cells

Null is grouped as the empty text, and a value of any other kind as its JSON text. Cells that differ
otherwise are never grouped as one. -/
namespace PanelSource

namespace Json

/-- A value other than a text, and the text that it is grouped as. -/
inductive GroupedAs : Json → String → Prop
  | null : GroupedAs .null ""
  | rendered {x : Json} (hnull : x ≠ .null) (htext : ∀ s, x ≠ .text s) : GroupedAs x x.render

/-- Values that are grouped as one. -/
inductive Alike : Json → Json → Prop
  | same (x : Json) : Alike x x
  | asText {x : Json} {s : String} (h : GroupedAs x s) : Alike x (.text s)
  | ofText {x : Json} {s : String} (h : GroupedAs x s) : Alike (.text s) x

theorem GroupedAs.unique {x y : Json} {s : String} (hx : GroupedAs x s) (hy : GroupedAs y s) :
    x = y := by
  generalize hs : s = s' at hy
  cases hx with
  | null =>
    cases hy with
    | null => rfl
    | rendered => exact absurd hs.symm (render_ne_empty y)
  | rendered =>
    cases hy with
    | null => exact absurd hs (render_ne_empty x)
    | rendered => exact render_injective hs

theorem keyPart_of_groupedAs {x : Json} {s : String} (h : GroupedAs x s) : keyPart x = s := by
  cases h with
  | null => rfl
  | rendered hnull htext =>
    unfold keyPart
    split
    · rename_i s
      exact absurd rfl (htext s)
    · exact absurd rfl hnull
    · rfl

theorem text_or_groupedAs (x : Json) : x = .text (keyPart x) ∨ GroupedAs x (keyPart x) := by
  unfold keyPart
  split
  · exact .inl rfl
  · exact .inr .null
  · rename_i htext hnull
    exact .inr (.rendered hnull htext)

theorem keyPart_eq_iff {x y : Json} : keyPart x = keyPart y ↔ Alike x y := by
  constructor
  · intro h
    rcases text_or_groupedAs x with hx | hx
    · rcases text_or_groupedAs y with hy | hy
      · rw [hx, hy, h]
        exact .same _
      · rw [hx, h]
        exact .ofText hy
    · rcases text_or_groupedAs y with hy | hy
      · rw [hy, ← h]
        exact .asText hx
      · obtain rfl := hx.unique (h ▸ hy)
        exact .same x
  · intro h
    cases h with
    | same => rfl
    | asText h => exact keyPart_of_groupedAs h
    | ofText h => exact (keyPart_of_groupedAs h).symm

end Json

namespace Layout

/-- The grouping cells of a row. -/
def groupCells (l : Layout) (row : List Json) : List Json := l.groups.map (Table.cell row)

/-- The distinct tuples of grouping cells. -/
def groupTuples (l : Layout) (t : Table) : Set (List Json) := {v | v ∈ t.rows.map l.groupCells}

/-- A row belongs to the group that the series at `n` is of, and has its point in that series. -/
inductive Contributes (l : Layout) (t : Table) (out : List Series) (r n : Nat) : Prop
  | intro {i j p : Nat} {key : GroupKey} {m : MetricColumn} {s : Series} {point : Datapoint}
      (key_at : (l.rowKeys t).eraseDups[i]? = some key) (metric_at : l.metrics[j]? = some m)
      (place : n = i * l.metrics.length + j) (series_at : out[n]? = some s)
      (row_at : (rowsWith (l.rowKeys t) key)[p]? = some r)
      (point_at : s.datapoints[p]? = some point) (point_eq : l.pointOf t m r = some point)

variable {l : Layout} {t : Table} {row row' : List Json}

theorem key_eq_map_groupCells (l : Layout) (row : List Json) :
    l.key row = (l.groupCells row).map keyPart := by
  rw [groupCells, List.map_map]
  rfl

theorem key_eq_iff : l.key row = l.key row' ↔
    ∀ i ∈ l.groups, Json.Alike (Table.cell row i) (Table.cell row' i) := by
  simp only [key, List.map_inj_left, Json.keyPart_eq_iff]

theorem getElem?_rowKeys {r : Nat} (h : t.rows[r]? = some row) :
    (l.rowKeys t)[r]? = some (l.key row) := by
  rw [rowKeys, List.getElem?_map, h, Option.map_some]

theorem ncard_mem_eq {α : Type} [BEq α] [LawfulBEq α] (xs : List α) :
    {x | x ∈ xs}.ncard = xs.eraseDups.length := by
  classical
  have hset : {x | x ∈ xs} = (xs.eraseDups.toFinset : Set α) := by
    ext x
    simp
  rw [hset, Set.ncard_coe_finset, List.toFinset_card_of_nodup (nodup_eraseDups xs)]

theorem finite_groupTuples (l : Layout) (t : Table) : (l.groupTuples t).Finite :=
  List.finite_toSet _

theorem keys_eq_image (l : Layout) (t : Table) :
    {key | key ∈ l.rowKeys t} = List.map keyPart '' l.groupTuples t := by
  ext key
  simp [rowKeys, groupTuples, key_eq_map_groupCells]

theorem length_rowKeys_le (l : Layout) (t : Table) :
    (l.rowKeys t).eraseDups.length ≤ (l.groupTuples t).ncard := by
  rw [← ncard_mem_eq, keys_eq_image]
  exact Set.ncard_image_le (l.finite_groupTuples t)

theorem length_rowKeys_eq_iff : (l.rowKeys t).eraseDups.length = (l.groupTuples t).ncard ↔
    ∀ row ∈ t.rows, ∀ row' ∈ t.rows,
      l.key row = l.key row' → l.groupCells row = l.groupCells row' := by
  rw [← ncard_mem_eq, keys_eq_image, Set.ncard_image_iff (l.finite_groupTuples t)]
  simp [Set.InjOn, groupTuples, key_eq_map_groupCells]

end Layout

namespace FansOut
open Layout
variable {d : Description} {t : Table} {l : Layout} {out : List Series}

theorem contributes_iff (h : FansOut d t l out) {r n : Nat} :
    l.Contributes t out r n ↔ ∃ i j key, (l.rowKeys t).eraseDups[i]? = some key ∧
      j < l.metrics.length ∧ n = i * l.metrics.length + j ∧ (l.rowKeys t)[r]? = some key := by
  constructor
  · rintro ⟨key_at, metric_at, place, -, row_at, -, -⟩
    exact ⟨_, _, _, key_at, (List.getElem?_eq_some_iff.mp metric_at).1, place,
      mem_rowsWith.mp (List.mem_of_getElem? row_at)⟩
  · rintro ⟨i, j, key, key_at, hj, place, hkey⟩
    have metric_at := List.getElem?_eq_getElem hj
    obtain ⟨s, series_at, -, hpoints⟩ := h.series_at i j key _ key_at metric_at
    obtain ⟨p, row_at⟩ := List.mem_iff_getElem?.mp (mem_rowsWith.mpr hkey)
    have hpoint : (s.datapoints[p]?).map some = some (l.pointOf t l.metrics[j] r) := by
      rw [← List.getElem?_map, hpoints, List.getElem?_map, row_at, Option.map_some]
    obtain ⟨point, point_at, hsome⟩ := Option.map_eq_some_iff.mp hpoint
    exact ⟨key_at, metric_at, place, place ▸ series_at, row_at, point_at, hsome.symm⟩

/-- Rows give points to one series when their keys are the same. -/
theorem exists_contributes_iff (h : FansOut d t l out) (hmetrics : l.metrics ≠ []) {r r' : Nat}
    {row row' : List Json} (hr : t.rows[r]? = some row) (hr' : t.rows[r']? = some row') :
    (∃ n, l.Contributes t out r n ∧ l.Contributes t out r' n) ↔ l.key row = l.key row' := by
  have hpos := List.length_pos_of_ne_nil hmetrics
  simp only [h.contributes_iff, getElem?_rowKeys hr, getElem?_rowKeys hr', Option.some.injEq]
  constructor
  · rintro ⟨n, ⟨i, j, key, hkey, hj, hn, rfl⟩, ⟨i', j', key', hkey', hj', hn', rfl⟩⟩
    have hdiv (i : Nat) {j : Nat} (hj : j < l.metrics.length) :
        (i * l.metrics.length + j) / l.metrics.length = i := by
      rw [Nat.add_comm, Nat.add_mul_div_right _ _ hpos, Nat.div_eq_of_lt hj, Nat.zero_add]
    have hi : i = i' := by rw [← hdiv i hj, ← hn, hn', hdiv i' hj']
    rw [hi, hkey'] at hkey
    exact (Option.some.inj hkey).symm
  · intro hsame
    have hmem : l.key row ∈ (l.rowKeys t).eraseDups :=
      List.mem_eraseDups.mpr (List.mem_of_getElem? (getElem?_rowKeys hr))
    obtain ⟨i, hi⟩ := List.mem_iff_getElem?.mp hmem
    exact ⟨i * l.metrics.length + 0, ⟨i, 0, _, hi, hpos, rfl, rfl⟩,
      ⟨i, 0, _, hi, hpos, rfl, hsame.symm⟩⟩

end FansOut

/-- The series of a table tell rows apart by the values of their grouping cells, but for values
that are grouped as one. -/
structure GroupsByValues (d : Description) (t : Table) (l : Layout) (out : List Series) : Prop where
  fansOut : FansOut d t l out
  together_iff : l.metrics ≠ [] → ∀ r r' row row', t.rows[r]? = some row →
    t.rows[r']? = some row' → ((∃ n, l.Contributes t out r n ∧ l.Contributes t out r' n) ↔
      ∀ i ∈ l.groups, Json.Alike (Table.cell row i) (Table.cell row' i))
  length_le : out.length ≤ (l.groupTuples t).ncard * l.metrics.length
  length_eq_iff : l.metrics ≠ [] → (out.length = (l.groupTuples t).ncard * l.metrics.length ↔
    ∀ row ∈ t.rows, ∀ row' ∈ t.rows,
      (∀ i ∈ l.groups, Json.Alike (Table.cell row i) (Table.cell row' i)) →
        ∀ i ∈ l.groups, Table.cell row i = Table.cell row' i)

theorem transform_groupsByValues {d : Description} {t : Table} {out : List Series}
    (hrows : t.rows ≠ []) (h : transform d t = .ok out) : ∃ l, GroupsByValues d t l out := by
  obtain ⟨l, -, hl, -⟩ := (transform_eq_ok_iff hrows).mp h
  have hfans := fansOut_of_transform hrows hl h
  refine ⟨l, hfans, ?_, ?_, ?_⟩
  · intro hmetrics r r' row row' hr hr'
    rw [hfans.exists_contributes_iff hmetrics hr hr', Layout.key_eq_iff]
  · rw [hfans.length_eq]
    exact Nat.mul_le_mul_right _ (l.length_rowKeys_le t)
  · intro hmetrics
    have hpos := List.length_pos_of_ne_nil hmetrics
    rw [hfans.length_eq, Nat.mul_left_inj hpos.ne', Layout.length_rowKeys_eq_iff]
    simp only [Layout.key_eq_iff, Layout.groupCells, List.map_inj_left]

def maxByHost : Description := { metrics := [⟨.max, "v"⟩], groupBy := ["host"] }

/-- Hosts of many kinds, one of them left out. -/
def hostsOfManyKinds : Table :=
  ⟨["time", "max(v)", "host"],
    [[.int 1, .int 10, .text "1"], [.int 2, .int 20, .int 1],
      [.int 3, .int 30, .double ⟨false, 1023 * 2 ^ 52, by decide⟩], [.int 4, .int 40],
      [.int 5, .int 50, .text ""], [.int 6, .int 60, .array [.int 1, .null]],
      [.int 7, .int 70, .text "[1,null]"], [.int 8, .int 80, .bool true]]⟩

def seriesOfManyKinds : List Series :=
  [⟨"1: max(v)", [⟨.int 10, 1⟩, ⟨.int 20, 2⟩]⟩, ⟨"1.0: max(v)", [⟨.int 30, 3⟩]⟩,
    ⟨": max(v)", [⟨.int 40, 4⟩, ⟨.int 50, 5⟩]⟩, ⟨"[1,null]: max(v)", [⟨.int 60, 6⟩, ⟨.int 70, 7⟩]⟩,
    ⟨"true: max(v)", [⟨.int 80, 8⟩]⟩]

theorem transform_groupsByValues_manyKinds :
    hostsOfManyKinds.rows ≠ [] ∧ transform maxByHost hostsOfManyKinds = .ok seriesOfManyKinds ∧
      ∃ l, GroupsByValues maxByHost hostsOfManyKinds l seriesOfManyKinds :=
  ⟨List.cons_ne_nil _ _, rfl, transform_groupsByValues (List.cons_ne_nil _ _) rfl⟩

/-- A host that is null, and one that is the empty text. -/
def namelessHosts : Table :=
  ⟨["time", "max(v)", "host"], [[.int 1, .int 10, .null], [.int 2, .int 20, .text ""]]⟩

def namelessSeries : List Series := [⟨": max(v)", [⟨.int 10, 1⟩, ⟨.int 20, 2⟩]⟩]

theorem namelessHosts_together :
    transform maxByHost namelessHosts = .ok namelessSeries ∧
      ∃ l, Layout.resolve maxByHost namelessHosts = .ok l ∧ l.metrics ≠ [] ∧
        l.Contributes namelessHosts namelessSeries 0 0 ∧
        l.Contributes namelessHosts namelessSeries 1 0 ∧
        (∃ i ∈ l.groups, Table.cell [.int 1, .int 10, .null] i ≠
          Table.cell [.int 2, .int 20, .text ""] i) ∧
        namelessSeries.length ≠ (l.groupTuples namelessHosts).ncard * l.metrics.length := by
  have hne : Json.null ≠ .text "" := Json.noConfusion
  have htuples : Layout.groupTuples ⟨0, [⟨"max(v)", 1⟩], [2]⟩ namelessHosts =
      {[.null], [.text ""]} := by
    ext v
    simp [Layout.groupTuples, Layout.groupCells, namelessHosts, Table.cell]
  have hcard : ({[.null], [.text ""]} : Set (List Json)).ncard = 2 :=
    Set.ncard_pair fun h => hne (List.cons.inj h).1
  refine ⟨rfl, ⟨0, [⟨"max(v)", 1⟩], [2]⟩, rfl, List.cons_ne_nil _ _, ?_, ?_, ?_, ?_⟩
  · exact .intro (i := 0) (j := 0) (p := 0) rfl rfl rfl rfl rfl rfl rfl
  · exact .intro (i := 0) (j := 0) (p := 1) rfl rfl rfl rfl rfl rfl rfl
  · exact ⟨2, List.mem_singleton_self 2, hne⟩
  · rw [htuples, hcard]
    decide

end PanelSource
