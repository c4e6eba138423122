import PanelSource.Proofs.Query.Aliases
import PanelSource.Proofs.Query.Compiled
import PanelSource.Proofs.Result.FanOut

/-! # Statements that aggregate, and their results

A result whose columns are named as the select list names them has every column that is looked up,
and every metric is read from a column selected with its own expression. -/
namespace PanelSource

/-- What the alias in the select item of a metric reads as. -/
def Metric.ResultName (m : Metric) (label : String) : Prop :=
  ∃ quoted, m.selectItem = m.expression ++ " AS " ++ quoted ∧
    QuotedIdentifier.name? quoted = some label

theorem Metric.resultName_iff {m : Metric} {label : String} :
    m.ResultName label ↔ label = m.expression := by
  constructor
  · rintro ⟨quoted, hitem, hname⟩
    have hchars := congrArg String.toList hitem
    simp only [selectItem, String.toList_append, List.append_assoc] at hchars
    have hquoted : quoted = quoteIdentifier m.expression :=
      String.toList_inj.mp
        (List.append_cancel_left (List.append_cancel_left hchars)).symm
    rw [hquoted, QuotedIdentifier.name?_quoteIdentifier] at hname
    exact (Option.some.inj hname).symm
  · rintro rfl
    exact ⟨_, rfl, QuotedIdentifier.name?_quoteIdentifier _⟩

theorem Metric.expression_ne_time (m : Metric) : m.expression ≠ "time" := by
  intro h
  have hparen : '(' ∈ m.expression.toList := by simp [expression]
  rw [h] at hparen
  exact absurd hparen (by decide)

namespace Description

/-- The columns of a result as the select list names them: the time under its alias, the metrics
under theirs and the grouping columns as they stand. -/
def NamedAsSelected (d : Description) (cols : List String) : Prop :=
  ∃ labels, cols = "time" :: (labels ++ d.groupBy) ∧
    List.Forall₂ Metric.ResultName d.metrics labels

theorem namedAsSelected_iff {d : Description} {cols : List String} :
    d.NamedAsSelected cols ↔ cols = "time" :: (d.metrics.map Metric.expression ++ d.groupBy) := by
  have hlabels (ms : List Metric) (labels : List String) :
      List.Forall₂ Metric.ResultName ms labels ↔ labels = ms.map Metric.expression := by
    induction ms generalizing labels with
    | nil => exact List.forall₂_nil_left_iff
    | cons m ms ih =>
      rw [List.forall₂_cons_left_iff, List.map_cons]
      constructor
      · rintro ⟨label, rest, hlabel, hrest, rfl⟩
        rw [Metric.resultName_iff.mp hlabel, (ih rest).mp hrest]
      · rintro rfl
        exact ⟨_, _, Metric.resultName_iff.mpr rfl, (ih _).mpr rfl, rfl⟩
  simp only [NamedAsSelected, hlabels]
  simp

theorem getElem?_selectItems {d : Description} {j : Nat} {m : Metric}
    (h : d.metrics[j]? = some m) : d.selectItems[j + 1]? = some m.selectItem := by
  rw [selectItems, List.getElem?_cons_succ, List.getElem?_append_left, List.getElem?_map, h]
  · rfl
  · rw [List.length_map]
    exact (List.getElem?_eq_some_iff.mp h).1

end Description

theorem exists_getElem?_of_forall₂ {α β : Type} {R : α → β → Prop} {xs : List α} {ys : List β}
    (h : List.Forall₂ R xs ys) {j : Nat} {x : α} (hx : xs[j]? = some x) :
    ∃ y, ys[j]? = some y ∧ R x y := by
  induction h generalizing j with
  | nil => simp at hx
  | cons hxy _ ih =>
    cases j with
    | zero =>
      cases hx
      exact ⟨_, rfl, hxy⟩
    | succ j => exact ih hx

/-- A table is read as the select list has selected: the time first, and each metric from among the
metrics, from an item with its own expression. Nothing but a time cell can be unreadable. -/
structure ReadAsSelected (d : Description) (t : Table) (l : Layout) : Prop where
  resolve_eq : Layout.resolve d t = .ok l
  time_eq : l.time = 0
  length_eq : l.metrics.length = d.metrics.length
  metric_at : ∀ (j : Nat) (m : Metric), d.metrics[j]? = some m →
    ∃ (c : MetricColumn) (m' : Metric), l.metrics[j]? = some c ∧ c.label = m.expression ∧
      1 ≤ c.position ∧ c.position ≤ d.metrics.length ∧ d.metrics[c.position - 1]? = some m' ∧
      d.selectItems[c.position]? = some m'.selectItem ∧ m'.expression = m.expression
  fansOut : ∀ out, t.rows ≠ [] → transform d t = .ok out → FansOut d t l out
  unreadable : ∀ e, transform d t = .error e →
    ∃ n row, t.rows[n]? = some row ∧ e = .invalidTimestamp n (Table.cell row 0)

section
variable {d : Description} {t : Table}

theorem firstPosition_time (hcols : d.NamedAsSelected t.cols) : t.FirstPosition "time" 0 := by
  rw [Description.namedAsSelected_iff] at hcols
  exact ⟨by rw [hcols]; rfl, by omega⟩

/-- The first column with the expression of a metric is a metric with this expression. -/
theorem metric_of_firstPosition (hcols : d.NamedAsSelected t.cols) {j p : Nat} {m : Metric}
    (hm : d.metrics[j]? = some m) (hp : t.FirstPosition m.expression p) :
    ∃ k m', p = k + 1 ∧ k < d.metrics.length ∧ d.metrics[k]? = some m' ∧
      m'.expression = m.expression := by
  rw [Description.namedAsSelected_iff] at hcols
  have hj := (List.getElem?_eq_some_iff.mp hm).1
  have hown : t.cols[j + 1]? = some m.expression := by
    rw [hcols, List.getElem?_cons_succ, List.getElem?_append_left (by simpa using hj),
      List.getElem?_map, hm]
    rfl
  obtain ⟨hat, hfirst⟩ := hp
  have hle : p ≤ j + 1 := by
    by_contra hlt
    exact hfirst (j + 1) (by omega) hown
  cases p with
  | zero =>
    rw [hcols] at hat
    exact absurd (Option.some.inj hat).symm m.expression_ne_time
  | succ k =>
    have hk : k < d.metrics.length := by omega
    rw [hcols, List.getElem?_cons_succ, List.getElem?_append_left (by simpa using hk),
      List.getElem?_map, List.getElem?_eq_getElem hk] at hat
    exact ⟨k, d.metrics[k], rfl, hk, List.getElem?_eq_getElem hk, Option.some.inj hat⟩

theorem exists_resolve (hmode : d.mode = .aggregate) (hsome : d.metrics ≠ [])
    (hcols : d.NamedAsSelected t.cols) : ∃ l, Layout.resolve d t = .ok l := by
  have htime := Layout.column_eq_ok_iff.mpr (firstPosition_time hcols)
  rw [Description.namedAsSelected_iff] at hcols
  have hgroups : ∀ name ∈ d.groupBy, name ∈ t.cols := by
    intro name hname
    rw [hcols]
    simp [hname]
  have hlabels : ∀ label ∈ d.metrics.map Metric.expression, label ∈ t.cols := by
    intro label hlabel
    rw [hcols]
    exact List.mem_cons_of_mem _ (List.mem_append_left _ hlabel)
  obtain ⟨groups, hg⟩ := Layout.exists_columns hgroups
  obtain ⟨metrics, hm⟩ := Layout.exists_labelled hlabels
  refine ⟨⟨0, metrics, groups⟩, ?_⟩
  simp only [Layout.resolve, Layout.timeName, Layout.metricColumns, hmode, hsome, htime, hg, hm]
  rfl

theorem time_eq_zero_of_resolve {l : Layout} (hmode : d.mode = .aggregate)
    (hcols : d.NamedAsSelected t.cols) (hl : Layout.resolve d t = .ok l) : l.time = 0 := by
  have htime := (Layout.resolves_of_resolve hl).time
  rw [Layout.timeName, hmode, ← Layout.column_eq_ok_iff] at htime
  have hzero := Layout.column_eq_ok_iff.mpr (firstPosition_time hcols)
  exact Except.ok.inj (htime.symm.trans hzero)

theorem named_of_resolve {l : Layout} (hmode : d.mode = .aggregate)
    (hl : Layout.resolve d t = .ok l) :
    List.Forall₂ (Layout.Named t) (d.metrics.map Metric.expression) l.metrics := by
  cases (Layout.resolves_of_resolve hl).metrics with
  | expressions _ _ h => exact h
  | columns hother => exact absurd hmode hother
  | remaining hother => exact absurd hmode hother

theorem unreadable_of_resolve {l : Layout} {e : QueryError} (hl : Layout.resolve d t = .ok l)
    (h : transform d t = .error e) :
    ∃ n row, t.rows[n]? = some row ∧ e = .invalidTimestamp n (Table.cell row l.time) := by
  have hrows : t.rows ≠ [] := by
    intro hnone
    simp [transform, hnone] at h
  rcases (transform_eq_error_iff hrows).mp h with h | ⟨l', hl', h⟩
  · cases hl.symm.trans h
  · cases hl.symm.trans hl'
    obtain ⟨n, row, hrow, -, rfl, -⟩ := Layout.timestamps_eq_error_iff.mp h
    exact ⟨n, row, hrow, by rw [Nat.zero_add]⟩

/-- A statement that aggregates and a result named as it selects fit together, whatever the rows
are and however names repeat. -/
theorem aggregate_readAsSelected {sql : String} (hmode : d.mode = .aggregate)
    (hc : d.compile = .ok sql) (hcols : d.NamedAsSelected t.cols) :
    ∃ l, ReadAsSelected d t l := by
  obtain ⟨-, hsome, -⟩ := (Description.compile_aggregate_iff hmode).mp hc
  obtain ⟨l, hl⟩ := exists_resolve hmode hsome hcols
  have htime := time_eq_zero_of_resolve hmode hcols hl
  have hnamed := named_of_resolve hmode hl
  refine ⟨l, hl, htime, ?_, ?_, fun out hrows h => fansOut_of_transform hrows hl h, ?_⟩
  · simpa using hnamed.length_eq.symm
  · intro j m hm
    have hexpr : (d.metrics.map Metric.expression)[j]? = some m.expression := by simp [hm]
    obtain ⟨c, hc, hlabel, hfirst⟩ := exists_getElem?_of_forall₂ hnamed hexpr
    obtain ⟨k, m', hk, hlt, hm', hsame⟩ := metric_of_firstPosition hcols hm hfirst
    refine ⟨c, m', hc, hlabel, by omega, by omega, ?_, ?_, hsame⟩
    · rwa [hk, Nat.add_sub_cancel]
    · rw [hk]
      exact Description.getElem?_selectItems hm'
  · intro e he
    rw [← htime]
    exact unreadable_of_resolve hl he

end

/-- A kind with a quote, a metric given twice, and a grouping column named like the metric. -/
def clashingNames : Description :=
  { table := "t", metrics := [⟨.other "a\" AS \"", "v"⟩, ⟨.avg, "v"⟩, ⟨.avg, "v"⟩],
    groupBy := ["avg(v)", "time"] }

def clashingTable : Table :=
  ⟨["time", "a\" AS \"(v)", "avg(v)", "avg(v)", "avg(v)", "time"],
    [[.int 1, .int 2], [.bool true]]⟩

theorem aggregate_readAsSelected_clashingNames :
    ∃ sql, clashingNames.mode = .aggregate ∧ clashingNames.compile = .ok sql ∧
      clashingNames.NamedAsSelected clashingTable.cols ∧
      ∃ l, ReadAsSelected clashingNames clashingTable l :=
  have hcols : clashingNames.NamedAsSelected clashingTable.cols :=
    Description.namedAsSelected_iff.mpr rfl
  ⟨_, rfl, rfl, hcols, aggregate_readAsSelected rfl rfl hcols⟩

end PanelSource
