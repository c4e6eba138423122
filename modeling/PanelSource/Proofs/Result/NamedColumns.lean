import PanelSource.Proofs.Result.FanOut
import PanelSource.Proofs.Result.Faults

/-! # Tables read by the names of their columns

Where no two columns have one name, a cell is found under the name of its column, and what a table
gives is told without positions. -/
namespace PanelSource

namespace Table
variable {t : Table} {name : String}

/-- The cell of a row under the name of its column. -/
def under (t : Table) (row : List Json) (name : String) : Json := cell row (t.cols.idxOf name)

theorem firstPosition_idxOf (h : name ∈ t.cols) : t.FirstPosition name (t.cols.idxOf name) :=
  position?_eq_some_iff.mp
    (List.findIdx?_eq_some_iff_findIdx_eq.mpr ⟨List.idxOf_lt_length_iff.mpr h, rfl⟩)

theorem FirstPosition.eq_idxOf {i : Nat} (h : t.FirstPosition name i) : i = t.cols.idxOf name :=
  firstPosition_unique h (firstPosition_idxOf (List.mem_of_getElem? h.1))

end Table

namespace Description

/-- The columns that are neither the time nor grouped by. -/
def valueColumns (d : Description) (cols : List String) : List String :=
  cols.filter fun name => name ≠ Layout.timeName d ∧ name ∉ d.groupBy

/-- The labels of the series of each group. -/
def labels (d : Description) (cols : List String) : List String :=
  if d.mode ≠ .aggregate ∧ d.metrics = [] then d.valueColumns cols else d.metricNames

theorem labels_of_named {d : Description} (h : d.mode = .aggregate ∨ d.metrics ≠ [])
    (cols : List String) : d.labels cols = d.metricNames :=
  if_neg fun hnot => h.elim hnot.1 fun hsome => hsome hnot.2

theorem labels_of_unnamed {d : Description} (hmode : d.mode ≠ .aggregate) (hnone : d.metrics = [])
    (cols : List String) : d.labels cols = d.valueColumns cols :=
  if_pos ⟨hmode, hnone⟩

theorem metricNames_of_mode {d : Description} (hmode : d.mode ≠ .aggregate) :
    d.metricNames = d.metrics.map Metric.column := by
  unfold metricNames
  cases hm : d.mode with
  | aggregate => exact absurd hm hmode
  | select => rfl
  | sql => rfl

def keyOf (d : Description) (t : Table) (row : List Json) : GroupKey :=
  d.groupBy.map fun name => keyPart (t.under row name)

/-- The distinct keys in the order of their first rows. -/
def keysIn (d : Description) (t : Table) : List GroupKey := (t.rows.map (d.keyOf t)).eraseDups

def timeCells (d : Description) (t : Table) : List Json :=
  t.rows.map fun row => t.under row (Layout.timeName d)

/-- The cell of a row under a label, at the instant of the row. -/
def pointUnder (d : Description) (t : Table) (label : String) (row : List Json) :
    Option Datapoint :=
  (t.under row (Layout.timeName d)).millis?.map fun ms => ⟨t.under row label, ms⟩

/-- The series of a group under a label: a point for each row that has the key. -/
def seriesUnder (d : Description) (t : Table) (key : GroupKey) (label : String) : Series where
  target := if d.groupBy = [] then label else " ".intercalate key ++ ": " ++ label
  datapoints := t.rows.filterMap fun row =>
    if d.keyOf t row = key then d.pointUnder t label row else none

/-- Series group by group. -/
def seriesIn (d : Description) (t : Table) : List Series :=
  (d.keysIn t).flatMap fun key => (d.labels t.cols).map (d.seriesUnder t key)

end Description

section Lists
variable {α β : Type} {xs : List α}

theorem eq_map_of_forall₂ {R : α → β → Prop} {f : α → β} {ys : List β}
    (h : List.Forall₂ R xs ys) (hf : ∀ x y, R x y → f x = y) : ys = xs.map f := by
  have hmap := List.forall₂_map_left_iff.mpr (h.imp hf)
  rw [List.forall₂_eq_eq_eq] at hmap
  exact hmap.symm

theorem zipIdx_eq_map_idxOf [BEq α] [LawfulBEq α] (h : xs.Nodup) :
    xs.zipIdx = xs.map fun x => (x, xs.idxOf x) := by
  apply List.ext_getElem?
  intro i
  rw [List.getElem?_zipIdx, List.getElem?_map, Nat.zero_add]
  cases hi : xs[i]? with
  | none => rfl
  | some x =>
    obtain ⟨hlt, rfl⟩ := List.getElem?_eq_some_iff.mp hi
    rw [Option.map_some, Option.map_some, h.idxOf_getElem i hlt]

theorem eq_filterMap_of_map_some {f : α → Option β} {ys : List β} (h : ys.map some = xs.map f) :
    ys = xs.filterMap f := by
  calc ys = (ys.map some).filterMap id := by rw [List.filterMap_map]; exact List.filterMap_some.symm
    _ = xs.filterMap f := by rw [h, List.filterMap_map]; rfl

/-- The numbers of the rows with a key are those of the rows that have it. -/
theorem filterMap_rowsWith (k : α → GroupKey) (key : GroupKey) (f : α → Option β) (xs : List α) :
    (rowsWith (xs.map k) key).filterMap (fun r => (xs[r]?).bind f) =
      xs.filterMap fun x => if k x = key then f x else none := by
  rw [rowsWith, List.filterMap_filter, List.length_map, ← filterMap_range_bind _ xs]
  apply List.filterMap_congr
  intro r _
  rw [List.getElem?_map]
  cases xs[r]? <;> simp

end Lists

namespace Layout
variable {d : Description} {t : Table} {l : Layout} {stamps : List Int}

theorem remaining_eq (h : t.cols.Nodup) (time : String) (groups : List String) :
    remaining t (t.cols.idxOf time) (groups.map t.cols.idxOf) =
      (t.cols.filter fun name => name ≠ time ∧ name ∉ groups).map fun name =>
        ⟨name, t.cols.idxOf name⟩ := by
  rw [remaining, zipIdx_eq_map_idxOf h, List.filter_map, List.map_map]
  congr 1
  apply List.filter_congr
  intro name hname
  have hsame (other : String) : t.cols.idxOf name = t.cols.idxOf other ↔ name = other :=
    List.idxOf_inj hname
  have hgroups : t.cols.idxOf name ∈ groups.map t.cols.idxOf ↔ name ∈ groups := by
    simp only [List.mem_map, eq_comm (b := t.cols.idxOf name), hsame, exists_eq_right']
  rw [Bool.eq_iff_iff, decide_eq_true_iff, Function.comp_apply, Bool.and_eq_true, bne_iff_ne,
    Bool.not_eq_true', ← Bool.not_eq_true, List.contains_iff_mem, hgroups, Ne, hsame]

theorem named_eq_map {names : List String} {ms : List MetricColumn}
    (h : List.Forall₂ (Named t) names ms) :
    ms = names.map fun name => ⟨name, t.cols.idxOf name⟩ := by
  refine eq_map_of_forall₂ h fun name m hm => ?_
  rw [← hm.2.eq_idxOf, ← hm.1]

theorem metrics_of_resolve (h : resolve d t = .ok l) :
    metricColumns d t l.time l.groups = .ok l.metrics := by
  simp only [resolve, Outcome.bind_eq_ok_iff] at h
  obtain ⟨time, -, groups, -, metrics, hm, he⟩ := h
  cases he
  exact hm

theorem metricColumns_of_unnamed (hmode : d.mode ≠ .aggregate) (hnone : d.metrics = [])
    (time : Nat) (groups : List Nat) :
    metricColumns d t time groups = .ok (remaining t time groups) := by
  unfold metricColumns
  cases hm : d.mode with
  | aggregate => exact absurd hm hmode
  | select => exact if_pos hnone
  | sql => exact if_pos hnone

/-- Distinct names tell where everything is. -/
structure ByNames (l : Layout) (d : Description) (t : Table) : Prop where
  time : l.time = t.cols.idxOf (timeName d)
  groups : l.groups = d.groupBy.map t.cols.idxOf
  metrics : l.metrics = (d.labels t.cols).map fun name => ⟨name, t.cols.idxOf name⟩

theorem byNames_of_resolve (hnames : t.cols.Nodup) (h : resolve d t = .ok l) : l.ByNames d t := by
  have hres := resolves_of_resolve h
  have htime := hres.time.eq_idxOf
  have hgroups := eq_map_of_forall₂ hres.groups fun _ _ hi => hi.eq_idxOf.symm
  refine ⟨htime, hgroups, ?_⟩
  cases hres.metrics with
  | expressions hmode hsome hnamed =>
    rw [Description.labels_of_named (.inl hmode), Description.metricNames, hmode]
    exact named_eq_map hnamed
  | columns hmode hsome hnamed =>
    rw [Description.labels_of_named (.inr hsome), Description.metricNames_of_mode hmode]
    exact named_eq_map hnamed
  | remaining hmode hnone _ =>
    have hmetrics := metrics_of_resolve h
    rw [metricColumns_of_unnamed hmode hnone, htime, hgroups, remaining_eq hnames] at hmetrics
    rw [Description.labels_of_unnamed hmode hnone]
    exact (Except.ok.inj hmetrics).symm

namespace ByNames

theorem key_eq (h : l.ByNames d t) (row : List Json) : l.key row = d.keyOf t row := by
  rw [key, h.groups, List.map_map]
  rfl

theorem rowKeys_eq (h : l.ByNames d t) : l.rowKeys t = t.rows.map (d.keyOf t) :=
  List.map_congr_left fun row _ => h.key_eq row

theorem target_eq (h : l.ByNames d t) (key : GroupKey) (label : String) :
    l.target key label =
      if d.groupBy = [] then label else " ".intercalate key ++ ": " ++ label := by
  simp only [target, h.groups, List.map_eq_nil_iff]

theorem pointOf_eq (h : l.ByNames d t) (label : String) (r : Nat) :
    l.pointOf t ⟨label, t.cols.idxOf label⟩ r = (t.rows[r]?).bind (d.pointUnder t label) := by
  simp only [pointOf, h.time, funext (Description.pointUnder.eq_def d t label), Option.map_eq_bind]
  rfl

/-- The series of a group and a metric. -/
theorem series_eq (h : l.ByNames d t) (hs : l.timestamps 0 t.rows = .ok stamps) (key : GroupKey)
    (label : String) :
    l.series (t.rows.zip stamps) key (rowsWith (l.rowKeys t) key) ⟨label, t.cols.idxOf label⟩ =
      d.seriesUnder t key label := by
  have hpoints := eq_filterMap_of_map_some (map_some_datapoints hs key ⟨label, t.cols.idxOf label⟩)
  simp only [h.pointOf_eq, h.rowKeys_eq, filterMap_rowsWith] at hpoints
  rw [h.rowKeys_eq, Description.seriesUnder, ← hpoints, ← h.target_eq]
  rfl

theorem fanOut_eq (h : l.ByNames d t) (hs : l.timestamps 0 t.rows = .ok stamps) :
    l.fanOut (t.rows.zip stamps) = d.seriesIn t := by
  have hg := grouped_zip_stamps hs
  calc l.fanOut (t.rows.zip stamps)
      = (l.grouped (t.rows.zip stamps)).flatMap fun group =>
          (d.labels t.cols).map (d.seriesUnder t group.1) := by
        apply List.flatMap_congr
        intro group hgroup
        dsimp only
        rw [hg.rows_eq group hgroup, h.metrics, List.map_map]
        exact List.map_congr_left fun label _ => h.series_eq hs group.1 label
    _ = ((l.grouped (t.rows.zip stamps)).map Prod.fst).flatMap fun key =>
          (d.labels t.cols).map (d.seriesUnder t key) := by rw [List.flatMap_map]
    _ = d.seriesIn t := by rw [hg.keys_eq, h.rowKeys_eq]; rfl

end ByNames

end Layout

theorem unreadableTime_iff {d : Description} {t : Table} {e : QueryError} :
    UnreadableTime d t e ↔ Layout.timeName d ∈ t.cols ∧
      ∃ n cell, (d.timeCells t)[n]? = some cell ∧ cell.millis? = none ∧
        (∀ k < n, ∀ c, (d.timeCells t)[k]? = some c → c.millis? ≠ none) ∧
        e = .invalidTimestamp n cell := by
  have hcells (k : Nat) (c : Json) : (d.timeCells t)[k]? = some c ↔
      ∃ row, t.rows[k]? = some row ∧ t.under row (Layout.timeName d) = c := by
    rw [Description.timeCells, List.getElem?_map, Option.map_eq_some_iff]
  simp only [hcells]
  constructor
  · rintro ⟨time, n, row, htime, hrow, hnone, hbefore, he, -⟩
    obtain rfl := htime.eq_idxOf
    refine ⟨List.mem_of_getElem? htime.1, n, _, ⟨row, hrow, rfl⟩, hnone, ?_, he⟩
    rintro k hk c ⟨q, hq, rfl⟩
    exact hbefore k hk q hq
  · rintro ⟨htime, n, _, ⟨row, hrow, rfl⟩, hnone, hbefore, rfl⟩
    refine ⟨_, n, row, Table.firstPosition_idxOf htime, hrow, hnone, ?_, rfl, rfl⟩
    exact fun k hk q hq => hbefore k hk _ ⟨q, hq, rfl⟩

/-- What a table of distinct names gives is told by the names. -/
theorem transform_eq_seriesIn {d : Description} {t : Table} {out : List Series}
    (hnames : t.cols.Nodup) (h : transform d t = .ok out) : out = d.seriesIn t := by
  by_cases hrows : t.rows = []
  · rw [transform, if_pos hrows] at h
    cases h
    rw [Description.seriesIn, Description.keysIn, hrows]
    rfl
  · obtain ⟨l, stamps, hl, hs, rfl⟩ := (transform_eq_ok_iff hrows).mp h
    exact (Layout.byNames_of_resolve hnames hl).fanOut_eq hs

end PanelSource
