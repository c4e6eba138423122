import Mathlib.Data.List.Forall2
import PanelSource.Proofs.Stages
import PanelSource.Result.Series

/-! # Columns found by their names

A layout that is found reads every column at its first position, and reads nothing that is no
column of the table. -/
namespace PanelSource

/-- The first column of a name. -/
def Table.FirstPosition (t : Table) (name : String) (i : Nat) : Prop :=
  t.cols[i]? = some name ∧ ∀ j < i, t.cols[j]? ≠ some name

theorem firstPosition_unique {t : Table} {name : String} {p q : Nat}
    (hp : t.FirstPosition name p) (hq : t.FirstPosition name q) : p = q := by
  rcases Nat.lt_trichotomy p q with hlt | heq | hlt
  · exact absurd hp.1 (hq.2 p hlt)
  · exact heq
  · exact absurd hq.1 (hp.2 q hlt)

theorem Table.position?_eq_some_iff {t : Table} {name : String} {i : Nat} :
    t.position? name = some i ↔ t.FirstPosition name i := by
  simp only [position?, List.findIdx?_eq_some_iff_getElem, beq_iff_eq, FirstPosition]
  constructor
  · rintro ⟨hi, hname, hfirst⟩
    refine ⟨List.getElem?_eq_some_iff.mpr ⟨hi, hname⟩, ?_⟩
    intro j hj hjn
    exact hfirst j hj (List.getElem?_eq_some_iff.mp hjn).2
  · rintro ⟨hname, hfirst⟩
    obtain ⟨hi, hn⟩ := List.getElem?_eq_some_iff.mp hname
    refine ⟨hi, hn, ?_⟩
    intro j hj hjn
    exact hfirst j hj (List.getElem?_eq_some_iff.mpr ⟨by omega, hjn⟩)

theorem Table.position?_eq_none_iff {t : Table} {name : String} :
    t.position? name = none ↔ name ∉ t.cols := by
  simp only [position?, List.findIdx?_eq_none_iff, beq_eq_false_iff_ne]
  constructor
  · exact fun h hm => h name hm rfl
  · exact fun h x hx he => h (he ▸ hx)

namespace Layout

theorem column_eq_ok_iff {t : Table} {name : String} {i : Nat} :
    column t name = .ok i ↔ t.FirstPosition name i := by
  rw [← Table.position?_eq_some_iff]
  unfold column
  cases t.position? name <;> simp

theorem column_eq_error_iff {t : Table} {name : String} {e : QueryError} :
    column t name = .error e ↔ name ∉ t.cols ∧ e = .missingColumn name := by
  rw [← Table.position?_eq_none_iff]
  unfold column
  cases t.position? name <;> simp [eq_comm]

theorem exists_column_iff {t : Table} {name : String} :
    (∃ i, column t name = .ok i) ↔ name ∈ t.cols := by
  constructor
  · rintro ⟨i, hi⟩
    exact List.mem_of_getElem? (column_eq_ok_iff.mp hi).1
  · intro hname
    cases hc : column t name with
    | ok i => exact ⟨i, rfl⟩
    | error e => exact absurd hname (column_eq_error_iff.mp hc).1

theorem columns_eq_ok_iff {t : Table} {names : List String} {positions : List Nat} :
    columns t names = .ok positions ↔ List.Forall₂ t.FirstPosition names positions := by
  induction names generalizing positions with
  | nil => cases positions <;> simp [columns]
  | cons name rest ih =>
    simp only [columns, Outcome.bind_eq_ok_iff, column_eq_ok_iff, ih]
    constructor
    · rintro ⟨i, hi, is, his, he⟩
      cases he
      exact .cons hi his
    · rintro (_ | ⟨hi, his⟩)
      exact ⟨_, hi, _, his, rfl⟩

/-- Names that are all there are found. -/
theorem exists_columns {t : Table} {names : List String} (h : ∀ name ∈ names, name ∈ t.cols) :
    ∃ positions, columns t names = .ok positions := by
  induction names with
  | nil => exact ⟨[], rfl⟩
  | cons name rest ih =>
    obtain ⟨is, his⟩ := ih fun n hn => h n (List.mem_cons_of_mem _ hn)
    obtain ⟨i, hi⟩ := exists_column_iff.mpr (h name List.mem_cons_self)
    exact ⟨i :: is, by simp [columns, hi, his, bind, Except.bind, pure, Except.pure]⟩

/-- A metric column under the name of its own column. -/
def Named (t : Table) (name : String) (m : MetricColumn) : Prop :=
  m.label = name ∧ t.FirstPosition name m.position

theorem labelled_eq_ok_iff {t : Table} {labels : List String} {ms : List MetricColumn} :
    labelled t labels = .ok ms ↔ List.Forall₂ (Named t) labels ms := by
  simp only [labelled, Outcome.bind_eq_ok_iff, columns_eq_ok_iff]
  constructor
  · rintro ⟨is, his, he⟩
    cases he
    induction his with
    | nil => exact .nil
    | cons hi _ ih => exact .cons ⟨rfl, hi⟩ ih
  · intro h
    refine ⟨ms.map MetricColumn.position, ?_, ?_⟩
    · induction h with
      | nil => exact .nil
      | cons hm _ ih => exact .cons hm.2 ih
    · congr 1
      induction h with
      | nil => rfl
      | cons hm _ ih => exact congrArg₂ List.cons (by rw [← hm.1]) ih

theorem exists_labelled {t : Table} {labels : List String} (h : ∀ label ∈ labels, label ∈ t.cols) :
    ∃ ms, labelled t labels = .ok ms := by
  obtain ⟨is, his⟩ := exists_columns h
  exact ⟨_, by rw [labelled, his]; rfl⟩

/-- The columns that are neither the time nor a grouping column, from left to right. -/
structure Remaining (t : Table) (time : Nat) (groups : List Nat) (ms : List MetricColumn) :
    Prop where
  ascending : ms.Pairwise fun a b => a.position < b.position
  mem_iff : ∀ m, m ∈ ms ↔
    t.cols[m.position]? = some m.label ∧ m.position ≠ time ∧ m.position ∉ groups

theorem remaining_spec (t : Table) (time : Nat) (groups : List Nat) :
    Remaining t time groups (remaining t time groups) := by
  refine ⟨?_, ?_⟩
  · have hsorted : t.cols.zipIdx.Pairwise fun a b => a.2 < b.2 := by
      rw [← List.pairwise_map (f := Prod.snd) (R := (· < ·)), List.zipIdx_map_snd]
      exact List.pairwise_lt_range'
    exact List.pairwise_map.mpr (hsorted.filter _)
  · rintro ⟨label, i⟩
    simp [remaining, List.mem_zipIdx_iff_getElem?]

/-- The metric columns of a result: named by expressions where the statement aggregates, else by
columns, or all that remain where no metric is named. -/
inductive MetricsAt (d : Description) (t : Table) (time : Nat) (groups : List Nat)
    (ms : List MetricColumn) : Prop
  | expressions (hmode : d.mode = .aggregate) (hsome : d.metrics ≠ [])
      (h : List.Forall₂ (Named t) (d.metrics.map Metric.expression) ms)
  | columns (hmode : d.mode ≠ .aggregate) (hsome : d.metrics ≠ [])
      (h : List.Forall₂ (Named t) (d.metrics.map Metric.column) ms)
  | remaining (hmode : d.mode ≠ .aggregate) (hnone : d.metrics = [])
      (h : Remaining t time groups ms)

theorem metricsAt_of_metricColumns {d : Description} {t : Table} {time : Nat} {groups : List Nat}
    {ms : List MetricColumn} (h : metricColumns d t time groups = .ok ms) :
    MetricsAt d t time groups ms := by
  have other (hmode : d.mode ≠ .aggregate)
      (h : (if d.metrics = [] then .ok (Layout.remaining t time groups)
        else labelled t (d.metrics.map Metric.column)) = Except.ok ms) :
      MetricsAt d t time groups ms := by
    split at h
    · rename_i hnone
      cases h
      exact .remaining hmode hnone (remaining_spec ..)
    · rename_i hsome
      exact .columns hmode hsome (labelled_eq_ok_iff.mp h)
  unfold metricColumns at h
  split at h
  · rename_i hmode
    split at h
    · cases h
    · rename_i hsome
      exact .expressions hmode hsome (labelled_eq_ok_iff.mp h)
  · rename_i hmode
    exact other (by simp [hmode]) h
  · rename_i hmode
    exact other (by simp [hmode]) h

/-- Where a description has its columns in a table. -/
structure Resolves (d : Description) (t : Table) (l : Layout) : Prop where
  time : t.FirstPosition (timeName d) l.time
  groups : List.Forall₂ t.FirstPosition d.groupBy l.groups
  metrics : MetricsAt d t l.time l.groups l.metrics

theorem resolves_of_resolve {d : Description} {t : Table} {l : Layout}
    (h : resolve d t = .ok l) : l.Resolves d t := by
  simp only [resolve, Outcome.bind_eq_ok_iff, column_eq_ok_iff, columns_eq_ok_iff] at h
  obtain ⟨time, ht, groups, hg, metrics, hm, he⟩ := h
  cases he
  exact ⟨ht, hg, metricsAt_of_metricColumns hm⟩

theorem Resolves.groups_eq_nil_iff {d : Description} {t : Table} {l : Layout}
    (h : l.Resolves d t) : l.groups = [] ↔ d.groupBy = [] := by
  have hlen := h.groups.length_eq
  rw [← List.length_eq_zero_iff, ← List.length_eq_zero_iff, hlen]

theorem timestamp_eq_ok_iff {row : Nat} {cell : Json} {ms : Int} :
    timestamp row cell = .ok ms ↔ cell.millis? = some ms := by
  unfold timestamp
  cases cell.millis? <;> simp

theorem timestamp_eq_error_iff {row : Nat} {cell : Json} {e : QueryError} :
    timestamp row cell = .error e ↔ cell.millis? = none ∧ e = .invalidTimestamp row cell := by
  unfold timestamp
  cases cell.millis? <;> simp [eq_comm]

theorem timestamps_eq_ok_iff {l : Layout} {row : Nat} {rows : List (List Json)}
    {stamps : List Int} : l.timestamps row rows = .ok stamps ↔
      List.Forall₂ (fun r ms => (Table.cell r l.time).millis? = some ms) rows stamps := by
  induction rows generalizing row stamps with
  | nil => cases stamps <;> simp [timestamps]
  | cons r rest ih =>
    simp only [timestamps, Outcome.bind_eq_ok_iff, timestamp_eq_ok_iff, ih]
    constructor
    · rintro ⟨ms, hms, mss, hmss, he⟩
      cases he
      exact .cons hms hmss
    · rintro (_ | ⟨hms, hmss⟩)
      exact ⟨_, hms, _, hmss, rfl⟩

/-- The first row whose time cell is no instant. -/
theorem timestamps_eq_error_iff {l : Layout} {row : Nat} {rows : List (List Json)}
    {e : QueryError} : l.timestamps row rows = .error e ↔
      ∃ n r, rows[n]? = some r ∧ (Table.cell r l.time).millis? = none ∧
        e = .invalidTimestamp (row + n) (Table.cell r l.time) ∧
        ∀ k < n, ∀ q, rows[k]? = some q → (Table.cell q l.time).millis? ≠ none := by
  induction rows generalizing row with
  | nil => simp [timestamps]
  | cons r rest ih =>
    simp only [timestamps, Outcome.bind_eq_error_iff, timestamp_eq_error_iff,
      timestamp_eq_ok_iff, ih]
    constructor
    · rintro (⟨hnone, he⟩ | ⟨ms, hms, ⟨n, q, hq, hnone, he, hbefore⟩ | ⟨mss, -, he⟩⟩)
      · exact ⟨0, r, rfl, hnone, he, by omega⟩
      · refine ⟨n + 1, q, hq, hnone, ?_, ?_⟩
        · rw [he, Nat.add_right_comm, Nat.add_assoc]
        · intro k hk q' hq'
          cases k with
          | zero => simp_all
          | succ k => exact hbefore k (by omega) q' hq'
      · cases he
    · rintro ⟨n, q, hq, hnone, he, hbefore⟩
      cases n with
      | zero =>
        cases hq
        exact .inl ⟨hnone, he⟩
      | succ n =>
        obtain ⟨ms, hms⟩ := Option.ne_none_iff_exists'.mp (hbefore 0 (by omega) r rfl)
        refine .inr ⟨ms, hms, .inl ⟨n, q, hq, hnone, ?_, ?_⟩⟩
        · rw [he, Nat.add_right_comm, Nat.add_assoc]
        · exact fun k hk q' hq' => hbefore (k + 1) (by omega) q' hq'

end Layout

theorem transform_eq_ok_iff {d : Description} {t : Table} {out : List Series}
    (hrows : t.rows ≠ []) : transform d t = .ok out ↔
      ∃ l stamps, Layout.resolve d t = .ok l ∧ l.timestamps 0 t.rows = .ok stamps ∧
        l.fanOut (t.rows.zip stamps) = out := by
  simp only [transform, hrows, if_false, Outcome.bind_eq_ok_iff]
  constructor
  · rintro ⟨l, hl, stamps, hs, he⟩
    cases he
    exact ⟨l, stamps, hl, hs, rfl⟩
  · rintro ⟨l, stamps, hl, hs, rfl⟩
    exact ⟨l, hl, stamps, hs, rfl⟩

/-- Nothing fails behind the reading of the time cells. -/
theorem transform_eq_error_iff {d : Description} {t : Table} {e : QueryError}
    (hrows : t.rows ≠ []) : transform d t = .error e ↔
      Layout.resolve d t = .error e ∨
        ∃ l, Layout.resolve d t = .ok l ∧ l.timestamps 0 t.rows = .error e := by
  simp only [transform, hrows, if_false, Outcome.bind_eq_error_iff]
  constructor
  · rintro (h | ⟨l, hl, h | ⟨stamps, -, h⟩⟩)
    · exact .inl h
    · exact .inr ⟨l, hl, h⟩
    · cases h
  · rintro (h | ⟨l, hl, h⟩)
    · exact .inl h
    · exact .inr ⟨l, hl, .inl h⟩

end PanelSource
