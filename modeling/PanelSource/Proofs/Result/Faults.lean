import PanelSource.Proofs.Result.Layout
import PanelSource.Proofs.Stages

/-! # What is wrong with a table that gives no series

A table is looked at in stages. At each stage there is at most one fault to report, and the first
stage with a fault decides the error. -/
namespace PanelSource

/-- The first of some names that is no column. -/
def MissesColumn (t : Table) (names : List String) (e : QueryError) : Prop :=
  ∃ before name after, names = before ++ name :: after ∧ (∀ n ∈ before, n ∈ t.cols) ∧
    name ∉ t.cols ∧ e = .missingColumn name

def LacksMetrics (d : Description) (e : QueryError) : Prop :=
  d.mode = .aggregate ∧ d.metrics = [] ∧ e = .invalidDescription .noResultMetric

/-- The first row whose time cell is no instant; the cell is shown as JSON. -/
def UnreadableTime (d : Description) (t : Table) (e : QueryError) : Prop :=
  ∃ time n row, t.FirstPosition (Layout.timeName d) time ∧ t.rows[n]? = some row ∧
    (Table.cell row time).millis? = none ∧
    (∀ k < n, ∀ q, t.rows[k]? = some q → (Table.cell q time).millis? ≠ none) ∧
    e = .invalidTimestamp n (Table.cell row time) ∧
    e.message = "Invalid timestamp at row " ++ Text.natText n ++ ": " ++
      (Table.cell row time).render

/-- Under which names the metrics are looked up. -/
def Description.metricNames (d : Description) : List String :=
  match d.mode with
  | .aggregate => d.metrics.map Metric.expression
  | .select | .sql => d.metrics.map Metric.column

/-- Faults in the order in which they are looked for. -/
def faults (d : Description) (t : Table) : List (QueryError → Prop) :=
  [MissesColumn t [Layout.timeName d], MissesColumn t d.groupBy, LacksMetrics d,
    MissesColumn t d.metricNames, UnreadableTime d t]

theorem missesColumn_nil {t : Table} {e : QueryError} : ¬MissesColumn t [] e := by
  rintro ⟨before, name, after, hnames, -⟩
  cases before <;> cases hnames

theorem missesColumn_cons_iff {t : Table} {name : String} {rest : List String} {e : QueryError} :
    MissesColumn t (name :: rest) e ↔
      name ∉ t.cols ∧ e = .missingColumn name ∨ name ∈ t.cols ∧ MissesColumn t rest e := by
  constructor
  · rintro ⟨before, n, after, hnames, hbefore, hn, he⟩
    cases before with
    | nil =>
      cases hnames
      exact .inl ⟨hn, he⟩
    | cons b before =>
      cases hnames
      rw [List.forall_mem_cons] at hbefore
      exact .inr ⟨hbefore.1, before, n, after, rfl, hbefore.2, hn, he⟩
  · rintro (⟨hn, he⟩ | ⟨hname, before, n, after, rfl, hbefore, hn, he⟩)
    · exact ⟨[], name, rest, rfl, by simp, hn, he⟩
    · exact ⟨name :: before, n, after, rfl, List.forall_mem_cons.mpr ⟨hname, hbefore⟩, hn, he⟩

namespace Layout
variable {d : Description} {t : Table}

theorem column_failsAs (t : Table) (name : String) :
    FailsAs (column t name) [MissesColumn t [name]] := by
  refine failsAs_of_iff fun e => ?_
  rw [column_eq_error_iff, missesColumn_cons_iff]
  simp [missesColumn_nil]

theorem columns_eq_error_iff {names : List String} {e : QueryError} :
    columns t names = .error e ↔ MissesColumn t names e := by
  induction names with
  | nil => simp [columns, missesColumn_nil]
  | cons name rest ih =>
    have hrest (i : Nat) : (columns t rest >>= fun is => pure (i :: is)) = .error e ↔
        MissesColumn t rest e := by
      rw [Outcome.bind_eq_error_iff, ih]
      simp [pure, Except.pure]
    simp only [columns, Outcome.bind_eq_error_iff, column_eq_error_iff, hrest, exists_and_right,
      exists_column_iff, missesColumn_cons_iff]

theorem columns_failsAs (t : Table) (names : List String) :
    FailsAs (columns t names) [MissesColumn t names] :=
  failsAs_of_iff fun _ => columns_eq_error_iff

theorem labelled_failsAs (t : Table) (labels : List String) :
    FailsAs (labelled t labels) [MissesColumn t labels] :=
  (columns_failsAs t labels).bind fun _ _ => failsAs_ok _

/-- Where no metric is named, none can be missing. -/
theorem metricColumns_failsAs (d : Description) (t : Table) (time : Nat) (groups : List Nat) :
    FailsAs (metricColumns d t time groups) [LacksMetrics d, MissesColumn t d.metricNames] := by
  have other (hmode : d.mode ≠ .aggregate) (hnames : d.metricNames = d.metrics.map Metric.column) :
      FailsAs (if d.metrics = [] then .ok (remaining t time groups)
        else labelled t (d.metrics.map Metric.column))
        [LacksMetrics d, MissesColumn t d.metricNames] := by
    refine FailsAs.cons (fun _ h => hmode h.1) ?_
    rw [hnames]
    split
    · rename_i hnone
      rw [hnone]
      exact FailsAs.cons (fun _ => missesColumn_nil) (failsAs_ok _)
    · exact labelled_failsAs t _
  unfold metricColumns
  cases hmode : d.mode with
  | aggregate =>
    dsimp only
    split
    · rename_i hnone
      exact failsAs_error fun e => by simp [LacksMetrics, hmode, hnone]
    · rename_i hsome
      have hnames : d.metricNames = d.metrics.map Metric.expression := by
        rw [Description.metricNames, hmode]
      rw [hnames]
      exact FailsAs.cons (fun _ h => hsome h.2.1) (labelled_failsAs t _)
  | select => exact other (by simp [hmode]) (by rw [Description.metricNames, hmode])
  | sql => exact other (by simp [hmode]) (by rw [Description.metricNames, hmode])

theorem timestamps_failsAs {l : Layout} (h : t.FirstPosition (timeName d) l.time) :
    FailsAs (l.timestamps 0 t.rows) [UnreadableTime d t] := by
  refine failsAs_of_iff fun e => ?_
  rw [timestamps_eq_error_iff]
  constructor
  · rintro ⟨n, row, hrow, hnone, rfl, hbefore⟩
    rw [Nat.zero_add]
    exact ⟨l.time, n, row, h, hrow, hnone, hbefore, rfl, rfl⟩
  · rintro ⟨time, n, row, htime, hrow, hnone, hbefore, rfl, -⟩
    cases firstPosition_unique h htime
    exact ⟨n, row, hrow, hnone, by rw [Nat.zero_add], hbefore⟩

theorem resolve_failsAs (d : Description) (t : Table) :
    FailsAs (resolve d t) [MissesColumn t [timeName d], MissesColumn t d.groupBy, LacksMetrics d,
      MissesColumn t d.metricNames] :=
  (column_failsAs t _).bind fun _ _ => (columns_failsAs t _).bind fun _ _ =>
    (metricColumns_failsAs d t _ _).bind fun _ _ => failsAs_ok _

end Layout

/-- A table with rows fails as the first of its faults says. -/
theorem transform_failsAs {d : Description} {t : Table} (hrows : t.rows ≠ []) :
    FailsAs (transform d t) (faults d t) := by
  rw [transform, if_neg hrows]
  refine (Layout.resolve_failsAs d t).bind fun l hl => ?_
  have htime := (Layout.resolves_of_resolve hl).time
  exact (Layout.timestamps_failsAs htime).bind fun _ _ => failsAs_ok _

/-- A table without rows gives no series, whatever its columns are. Any other fails exactly where
it has a fault, as its first fault says; else it gives all its series. -/
theorem transform_fails_iff (d : Description) (t : Table) :
    (∀ cols, transform d ⟨cols, []⟩ = .ok []) ∧
    (∀ e, transform d t = .error e ↔ t.rows ≠ [] ∧ FirstOf (faults d t) e) ∧
    ((∃ out, transform d t = .ok out) ↔ t.rows = [] ∨ ∀ fault ∈ faults d t, ∀ e, ¬fault e) := by
  have hnone (cols : List String) : transform d ⟨cols, []⟩ = .ok [] := rfl
  refine ⟨hnone, ?_⟩
  obtain ⟨cols, rows⟩ := t
  cases rows with
  | nil => simp [hnone cols]
  | cons row rows =>
    have hrows : (⟨cols, row :: rows⟩ : Table).rows ≠ [] := List.cons_ne_nil _ _
    have hfails := transform_failsAs (d := d) hrows
    refine ⟨fun e => by rw [hfails e, and_iff_right hrows], ?_⟩
    have hclear : (∃ out, transform d ⟨cols, row :: rows⟩ = .ok out) ↔
        ¬∃ e, FirstOf (faults d ⟨cols, row :: rows⟩) e := by
      simp only [← hfails _]
      cases transform d ⟨cols, row :: rows⟩ <;> simp
    rw [or_iff_right hrows, hclear, exists_firstOf_iff]
    simp only [not_exists, not_and]

def averagesByPlace : Description :=
  { metrics := [⟨.avg, "v"⟩], groupBy := ["host", "dc", "rack"] }

/-- Two grouping columns and the metric are missing, and the second row has no instant. -/
def hostsAlone : Table := ⟨["host", "time"], [[.text "a", .int 1], [.text "b"]]⟩

theorem transform_fails_iff_hostsAlone :
    FirstOf (faults averagesByPlace hostsAlone) (.missingColumn "dc") ∧
      MissesColumn hostsAlone averagesByPlace.metricNames (.missingColumn "avg(v)") ∧
      UnreadableTime averagesByPlace hostsAlone (.invalidTimestamp 1 .null) := by
  obtain ⟨-, hfails, -⟩ := transform_fails_iff averagesByPlace hostsAlone
  refine ⟨((hfails _).mp rfl).2, ⟨[], "avg(v)", [], rfl, by simp, by decide, rfl⟩, ?_⟩
  have htime : hostsAlone.FirstPosition "time" 1 := Table.position?_eq_some_iff.mp rfl
  refine ⟨1, 1, _, htime, rfl, rfl, fun k hk q hq => ?_, rfl, rfl⟩
  obtain rfl : k = 0 := by omega
  cases hq
  exact Option.some_ne_none _

end PanelSource
