import Mathlib.Data.List.Perm.Basic
import PanelSource.Proofs.Result.NamedColumns

/-! # The order of columns

The columns of a table of distinct names may stand in any order: what is read under a name stays the
same. Only where no metric is named do the series of each group follow the columns. -/
namespace PanelSource

/-- Elements by their old places, in a new order. -/
def reorder {α : Type} (order : List Nat) (xs : List α) : List α := order.filterMap fun i => xs[i]?

/-- The columns in a new order, in the names and in every row. -/
def Table.reordered (order : List Nat) (t : Table) : Table :=
  ⟨reorder order t.cols, t.rows.map (reorder order)⟩

section Lists
variable {α : Type} {order : List Nat} {xs : List α}

theorem map_some_reorder (h : order.Perm (List.range xs.length)) :
    (reorder order xs).map some = order.map fun i => xs[i]? := by
  apply map_some_filterMap
  intro i hi
  have hlt : i < xs.length := List.mem_range.mp (h.mem_iff.mp hi)
  rw [List.getElem?_eq_getElem hlt, Option.isSome_some]

theorem length_reorder (h : order.Perm (List.range xs.length)) :
    (reorder order xs).length = xs.length := by
  have hlen := congrArg List.length (map_some_reorder h)
  rwa [List.length_map, List.length_map, h.length_eq, List.length_range] at hlen

theorem getElem?_reorder (h : order.Perm (List.range xs.length)) {k i : Nat}
    (hk : order[k]? = some i) : (reorder order xs)[k]? = xs[i]? := by
  have hat : ((reorder order xs)[k]?).map some = some xs[i]? := by
    rw [← List.getElem?_map, map_some_reorder h, List.getElem?_map, hk, Option.map_some]
  obtain ⟨x, hx, hsame⟩ := Option.map_eq_some_iff.mp hat
  rw [hx, hsame]

theorem perm_reorder (h : order.Perm (List.range xs.length)) : (reorder order xs).Perm xs := by
  have hall := filterMap_range_bind some xs
  simp only [Option.bind_fun_some, List.filterMap_some] at hall
  calc (reorder order xs).Perm ((List.range xs.length).filterMap fun i => xs[i]?) := h.filterMap _
    _ = xs := hall

/-- An element of one list is found at the place that its partner has in the other. -/
theorem getElem?_reorder_idxOf {β : Type} [BEq α] [LawfulBEq α] {ys : List β} (hd : xs.Nodup)
    (h : order.Perm (List.range xs.length)) (hlen : ys.length = xs.length) (x : α) :
    (reorder order ys)[(reorder order xs).idxOf x]? = ys[xs.idxOf x]? := by
  have hys : order.Perm (List.range ys.length) := hlen ▸ h
  have hmem : x ∈ reorder order xs ↔ x ∈ xs := (perm_reorder h).mem_iff
  by_cases hx : x ∈ xs
  · have hnew := List.getElem?_idxOf (hmem.mpr hx)
    have hlt : (reorder order xs).idxOf x < order.length := by
      rw [h.length_eq, List.length_range, ← length_reorder h]
      exact List.idxOf_lt_length_iff.mpr (hmem.mpr hx)
    obtain ⟨i, hi⟩ : ∃ i, order[(reorder order xs).idxOf x]? = some i :=
      ⟨_, List.getElem?_eq_getElem hlt⟩
    rw [getElem?_reorder h hi] at hnew
    rw [getElem?_reorder hys hi]
    obtain ⟨hold, rfl⟩ := List.getElem?_eq_some_iff.mp hnew
    rw [hd.idxOf_getElem]
  · have hout := mt hmem.mp hx
    rw [List.idxOf_of_notMem hx, List.idxOf_of_notMem hout, length_reorder h, ← hlen,
      ← length_reorder hys, List.getElem?_length, length_reorder hys, List.getElem?_length]

end Lists

section
variable {d : Description} {t : Table} {order : List Nat} (hnames : t.cols.Nodup)
  (haligned : ∀ row ∈ t.rows, row.length = t.cols.length)
  (horder : order.Perm (List.range t.cols.length))
include hnames haligned horder

theorem under_reordered {row : List Json} (hrow : row ∈ t.rows) (name : String) :
    (t.reordered order).under (reorder order row) name = t.under row name := by
  have hat := getElem?_reorder_idxOf hnames horder (haligned row hrow) name
  rw [Table.under, Table.under, Table.cell, Table.cell, Table.reordered, hat]

theorem keyOf_reordered {row : List Json} (hrow : row ∈ t.rows) :
    d.keyOf (t.reordered order) (reorder order row) = d.keyOf t row := by
  simp only [Description.keyOf, under_reordered hnames haligned horder hrow]

theorem pointUnder_reordered {row : List Json} (hrow : row ∈ t.rows) (label : String) :
    d.pointUnder (t.reordered order) label (reorder order row) = d.pointUnder t label row := by
  simp only [Description.pointUnder, under_reordered hnames haligned horder hrow]

theorem keysIn_reordered : d.keysIn (t.reordered order) = d.keysIn t := by
  have hkeys : (t.rows.map (reorder order)).map (d.keyOf (t.reordered order)) =
      t.rows.map (d.keyOf t) := by
    rw [List.map_map]
    exact List.map_congr_left fun row hrow => keyOf_reordered hnames haligned horder hrow
  exact congrArg List.eraseDups hkeys

theorem seriesUnder_reordered (key : GroupKey) (label : String) :
    d.seriesUnder (t.reordered order) key label = d.seriesUnder t key label := by
  have hrows : (t.reordered order).rows = t.rows.map (reorder order) := rfl
  rw [Description.seriesUnder, Description.seriesUnder, hrows, List.filterMap_map]
  congr 1
  apply List.filterMap_congr
  intro row hrow
  rw [Function.comp_apply, keyOf_reordered hnames haligned horder hrow,
    pointUnder_reordered hnames haligned horder hrow]

theorem timeCells_reordered : d.timeCells (t.reordered order) = d.timeCells t := by
  have hrows : (t.reordered order).rows = t.rows.map (reorder order) := rfl
  rw [Description.timeCells, Description.timeCells, hrows, List.map_map]
  exact List.map_congr_left fun row hrow => under_reordered hnames haligned horder hrow _

/-- Columns in another order lack the same names and have the same unreadable times. -/
theorem faults_reordered : faults d (t.reordered order) = faults d t := by
  have hcols (name : String) : name ∈ (t.reordered order).cols ↔ name ∈ t.cols :=
    (perm_reorder horder).mem_iff
  have hmissing : MissesColumn (t.reordered order) = MissesColumn t := by
    funext names e
    simp only [MissesColumn, hcols]
  have htime : UnreadableTime d (t.reordered order) = UnreadableTime d t := by
    funext e
    simp only [unreadableTime_iff, hcols, timeCells_reordered hnames haligned horder]
  rw [faults, faults, hmissing, htime]

theorem transform_reordered_eq_error_iff {e : QueryError} :
    transform d (t.reordered order) = .error e ↔ transform d t = .error e := by
  have hnone : (t.reordered order).rows = [] ↔ t.rows = [] := List.map_eq_nil_iff
  by_cases hrows : t.rows = []
  · rw [transform, transform, if_pos hrows, if_pos (hnone.mpr hrows)]
  · rw [transform_failsAs hrows e, transform_failsAs (mt hnone.mp hrows) e,
      faults_reordered hnames haligned horder]

theorem seriesIn_reordered : d.seriesIn (t.reordered order) =
    (d.keysIn t).flatMap fun key =>
      (d.labels (reorder order t.cols)).map (d.seriesUnder t key) := by
  have hcols : (t.reordered order).cols = reorder order t.cols := rfl
  simp only [Description.seriesIn, hcols, keysIn_reordered hnames haligned horder]
  apply List.flatMap_congr
  intro key _
  exact List.map_congr_left fun label _ => seriesUnder_reordered hnames haligned horder key label

end

/-- The answers to a table and to its columns in another order: the same where metrics are looked up
by name. Where all remaining columns are shown, the groups and their series are the same, and in
each group the series stand as the columns do. -/
theorem transform_reordered (d : Description) {t : Table} {order : List Nat}
    (hnames : t.cols.Nodup) (haligned : ∀ row ∈ t.rows, row.length = t.cols.length)
    (horder : order.Perm (List.range t.cols.length)) :
    (d.mode = .aggregate ∨ d.metrics ≠ [] →
        transform d (t.reordered order) = transform d t) ∧
      (∀ e, transform d (t.reordered order) = .error e ↔ transform d t = .error e) ∧
      (d.mode ≠ .aggregate → d.metrics = [] → ∀ out out', transform d t = .ok out →
        transform d (t.reordered order) = .ok out' →
          out = ((d.keysIn t).flatMap fun key =>
            (d.valueColumns t.cols).map (d.seriesUnder t key)) ∧
          out' = ((d.keysIn t).flatMap fun key =>
            (d.valueColumns (reorder order t.cols)).map (d.seriesUnder t key)) ∧
          out'.Perm out) := by
  have hnames' : (t.reordered order).cols.Nodup := (perm_reorder horder).nodup_iff.mpr hnames
  have hfails (e : QueryError) := transform_reordered_eq_error_iff (d := d) hnames haligned horder
    (e := e)
  have hseries := seriesIn_reordered (d := d) hnames haligned horder
  refine ⟨fun hnamed => ?_, hfails, fun hmode hnone out out' hout hout' => ?_⟩
  · cases hold : transform d t with
    | error e => exact (hfails e).mpr hold
    | ok out =>
      cases hnew : transform d (t.reordered order) with
      | error e => exact absurd ((hfails e).mp hnew) (by simp [hold])
      | ok out' =>
        rw [transform_eq_seriesIn hnames hold, transform_eq_seriesIn hnames' hnew, hseries,
          Description.seriesIn, Description.labels_of_named hnamed,
          Description.labels_of_named hnamed]
  · have hlabels := Description.labels_of_unnamed hmode hnone
    rw [transform_eq_seriesIn hnames hout, transform_eq_seriesIn hnames' hout', hseries,
      Description.seriesIn, hlabels, hlabels]
    refine ⟨rfl, rfl, List.Perm.flatMap_left _ fun key _ => ?_⟩
    exact ((perm_reorder horder).filter _).map _

def gaugesByHost : Description := { mode := .select, timeColumn := some "at", groupBy := ["host"] }

def cpuByHost : Description := { gaugesByHost with metrics := [⟨.max, "cpu"⟩] }

/-- Two gauges of two hosts, the time last. -/
def gauges : Table :=
  ⟨["cpu", "host", "mem", "at"],
    [[.int 1, .text "b", .int 5, .int 100], [.int 2, .text "a", .int 6, .int 200],
      [.int 3, .text "b", .int 7, .int 300]]⟩

def gaugeSeries : List Series :=
  [⟨"b: cpu", [⟨.int 1, 100⟩, ⟨.int 3, 300⟩]⟩, ⟨"b: mem", [⟨.int 5, 100⟩, ⟨.int 7, 300⟩]⟩,
    ⟨"a: cpu", [⟨.int 2, 200⟩]⟩, ⟨"a: mem", [⟨.int 6, 200⟩]⟩]

def gaugeSeriesReversed : List Series :=
  [⟨"b: mem", [⟨.int 5, 100⟩, ⟨.int 7, 300⟩]⟩, ⟨"b: cpu", [⟨.int 1, 100⟩, ⟨.int 3, 300⟩]⟩,
    ⟨"a: mem", [⟨.int 6, 200⟩]⟩, ⟨"a: cpu", [⟨.int 2, 200⟩]⟩]

theorem transform_reordered_gauges :
    gauges.cols.Nodup ∧ (∀ row ∈ gauges.rows, row.length = gauges.cols.length) ∧
      [3, 2, 1, 0].Perm (List.range gauges.cols.length) ∧
      transform cpuByHost (gauges.reordered [3, 2, 1, 0]) = transform cpuByHost gauges ∧
      transform gaugesByHost gauges = .ok gaugeSeries ∧
      transform gaugesByHost (gauges.reordered [3, 2, 1, 0]) = .ok gaugeSeriesReversed ∧
      gaugeSeriesReversed.Perm gaugeSeries := by
  have hnames : gauges.cols.Nodup := by decide
  have haligned : ∀ row ∈ gauges.rows, row.length = gauges.cols.length := by
    simp [gauges]
  have horder : [3, 2, 1, 0].Perm (List.range gauges.cols.length) := by decide
  obtain ⟨hnamed, -⟩ := transform_reordered cpuByHost hnames haligned horder
  obtain ⟨-, -, hunnamed⟩ := transform_reordered gaugesByHost hnames haligned horder
  obtain ⟨-, -, hperm⟩ := hunnamed (by decide) rfl gaugeSeries gaugeSeriesReversed rfl rfl
  exact ⟨hnames, haligned, horder, hnamed (.inr (List.cons_ne_nil _ _)), rfl, rfl, hperm⟩

end PanelSource
