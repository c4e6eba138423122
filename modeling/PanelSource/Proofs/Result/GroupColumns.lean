import PanelSource.Proofs.Result.AggregateColumns

/-! # Grouping columns among the columns that were selected

A grouping column is read at the first column of its name, and the time and the metrics are selected
before it. It is read as selected unless one of them has its name. -/
namespace PanelSource

namespace Description

/-- What is selected at a position is the column itself: among the grouping columns, or as the
bucket where this is a bare column. -/
def SelectsColumn (d : Description) (name : String) (position : Nat) : Prop :=
  d.metrics.length < position ∧ d.selectItems[position]? = some name ∨
    position = 0 ∧ d.bucket = name

/-- The alias of another bucket, or the label of a metric, is the name of the column. -/
def Clashes (d : Description) (name : String) : Prop :=
  name = "time" ∧ d.bucket ≠ "time" ∨ ∃ m ∈ d.metrics, m.expression = name

instance (d : Description) (name : String) : Decidable (d.Clashes name) :=
  inferInstanceAs (Decidable (_ ∨ _))

theorem getElem?_selectItems_groupBy (d : Description) (k : Nat) :
    d.selectItems[d.metrics.length + 1 + k]? = d.groupBy[k]? := by
  have hlength : (d.metrics.map Metric.selectItem).length = d.metrics.length := List.length_map _
  have hplace : d.metrics.length + 1 + k = d.metrics.length + k + 1 := by omega
  rw [selectItems, hplace, List.getElem?_cons_succ,
    List.getElem?_append_right (by rw [hlength]; omega), hlength, Nat.add_sub_cancel_left]

end Description

section
variable {d : Description} {t : Table} {name : String} {p : Nat}

/-- Behind the time and the metrics the columns of a result are the grouping columns. -/
theorem groupBy_of_column (hcols : d.NamedAsSelected t.cols) {k : Nat}
    (hat : t.cols[d.metrics.length + 1 + k]? = some name) : d.groupBy[k]? = some name := by
  rw [Description.namedAsSelected_iff] at hcols
  have hlength : (d.metrics.map Metric.expression).length = d.metrics.length := List.length_map _
  have hplace : d.metrics.length + 1 + k = d.metrics.length + k + 1 := by omega
  rwa [hcols, hplace, List.getElem?_cons_succ,
    List.getElem?_append_right (by rw [hlength]; omega), hlength, Nat.add_sub_cancel_left] at hat

theorem metric_of_column (hcols : d.NamedAsSelected t.cols) {k : Nat} (hk : k < d.metrics.length)
    (hat : t.cols[k + 1]? = some name) : ∃ m ∈ d.metrics, m.expression = name := by
  rw [Description.namedAsSelected_iff] at hcols
  rw [hcols, List.getElem?_cons_succ, List.getElem?_append_left (by simpa using hk),
    List.getElem?_map, List.getElem?_eq_getElem hk] at hat
  exact ⟨d.metrics[k], List.getElem_mem hk, Option.some.inj hat⟩

theorem selectsColumn_of_not_clashes (hcols : d.NamedAsSelected t.cols)
    (hp : t.FirstPosition name p) (hclear : ¬d.Clashes name) : d.SelectsColumn name p := by
  rw [Description.Clashes, not_or] at hclear
  rcases Nat.lt_or_ge p (d.metrics.length + 1) with hlt | hge
  · cases p with
    | zero =>
      have htime := (firstPosition_time hcols).1
      rw [hp.1] at htime
      cases Option.some.inj htime
      by_contra hnot
      exact hclear.1 ⟨rfl, fun hbucket => hnot (.inr ⟨rfl, hbucket⟩)⟩
    | succ k => exact absurd (metric_of_column hcols (by omega) hp.1) hclear.2
  · obtain ⟨k, rfl⟩ := Nat.exists_eq_add_of_le hge
    refine .inl ⟨by omega, ?_⟩
    rw [d.getElem?_selectItems_groupBy]
    exact groupBy_of_column hcols hp.1

theorem not_clashes_of_selectsColumn (hcols : d.NamedAsSelected t.cols)
    (hp : t.FirstPosition name p) (hselects : d.SelectsColumn name p) : ¬d.Clashes name := by
  rintro (⟨rfl, hbucket⟩ | ⟨m, hm, rfl⟩)
  · cases firstPosition_unique hp (firstPosition_time hcols)
    rcases hselects with ⟨hlt, -⟩ | ⟨-, hself⟩
    · exact Nat.not_lt_zero _ hlt
    · exact hbucket hself
  · obtain ⟨j, hj⟩ := List.mem_iff_getElem?.mp hm
    obtain ⟨k, -, rfl, hk, -⟩ := metric_of_firstPosition hcols hj hp
    rcases hselects with ⟨hlt, -⟩ | ⟨hzero, -⟩
    · omega
    · exact Nat.succ_ne_zero _ hzero

/-- A result named as its statement selects is grouped by a column that was selected for it exactly
when neither the bucket nor a metric has taken the name. -/
theorem group_readAsSelected_iff {sql : String} (hmode : d.mode = .aggregate)
    (hc : d.compile = .ok sql) (hcols : d.NamedAsSelected t.cols) :
    ∃ l, Layout.resolve d t = .ok l ∧
      (∀ out, t.rows ≠ [] → transform d t = .ok out → FansOut d t l out) ∧
      ∀ (k : Nat) (name : String), d.groupBy[k]? = some name →
        ∃ p, l.groups[k]? = some p ∧ (d.SelectsColumn name p ↔ ¬d.Clashes name) := by
  obtain ⟨-, hsome, -⟩ := (Description.compile_aggregate_iff hmode).mp hc
  obtain ⟨l, hl⟩ := exists_resolve hmode hsome hcols
  refine ⟨l, hl, fun out hrows h => fansOut_of_transform hrows hl h, fun k name hk => ?_⟩
  obtain ⟨p, hp, hfirst⟩ :=
    exists_getElem?_of_forall₂ (Layout.resolves_of_resolve hl).groups hk
  exact ⟨p, hp, not_clashes_of_selectsColumn hcols hfirst,
    selectsColumn_of_not_clashes hcols hfirst⟩

end

/-- The bucket is a column named `time`, and the second grouping column looks like a metric. -/
def lowerHost : Description :=
  { table := "t", metrics := [⟨.other "lower", "host"⟩],
    groupBy := ["time", "lower(host)", "dc", "dc"] }

def lowerHostTable : Table := ⟨["time", "lower(host)", "time", "lower(host)", "dc", "dc"], []⟩

theorem group_readAsSelected_iff_lowerHost :
    ∃ sql, lowerHost.mode = .aggregate ∧ lowerHost.compile = .ok sql ∧
      lowerHost.NamedAsSelected lowerHostTable.cols ∧
      ∃ l, Layout.resolve lowerHost lowerHostTable = .ok l ∧ l.groups = [0, 1, 4, 4] ∧
        lowerHost.SelectsColumn "time" 0 ∧ ¬lowerHost.SelectsColumn "lower(host)" 1 ∧
        lowerHost.SelectsColumn "dc" 4 := by
  have hcols : lowerHost.NamedAsSelected lowerHostTable.cols :=
    Description.namedAsSelected_iff.mpr rfl
  obtain ⟨l, hl, -, hgroups⟩ := group_readAsSelected_iff (t := lowerHostTable) rfl rfl hcols
  cases hl
  obtain ⟨_, hp, htime⟩ := hgroups 0 "time" rfl
  cases Option.some.inj hp
  obtain ⟨_, hp, hlower⟩ := hgroups 1 "lower(host)" rfl
  cases Option.some.inj hp
  obtain ⟨_, hp, hdc⟩ := hgroups 3 "dc" rfl
  cases Option.some.inj hp
  exact ⟨_, rfl, rfl, hcols, _, rfl, rfl, htime.mpr (by decide),
    fun h => hlower.mp h (by decide), hdc.mpr (by decide)⟩

/-- Buckets are made of `ts`, and the table has another column `time`. -/
def bucketOfAnother : Description :=
  { table := "t", timeColumn := some "ts", metrics := [⟨.avg, "v"⟩], groupBy := ["time"] }

def sameGroupTwice : Table :=
  ⟨["time", "avg(v)", "time"], [[.int 1, .int 10, .text "a"], [.int 2, .int 20, .text "a"]]⟩

theorem bucketOfAnother_groups :
    bucketOfAnother.mode = .aggregate ∧
      bucketOfAnother.compile = .ok
        "SELECT ts AS time, avg(v) AS \"avg(v)\", time FROM t GROUP BY ts, time ORDER BY time ASC" ∧
      bucketOfAnother.NamedAsSelected sameGroupTwice.cols ∧
      Layout.resolve bucketOfAnother sameGroupTwice = .ok ⟨0, [⟨"avg(v)", 1⟩], [0]⟩ ∧
      ¬bucketOfAnother.SelectsColumn "time" 0 ∧
      transform bucketOfAnother sameGroupTwice =
        .ok [⟨"1: avg(v)", [⟨.int 10, 1⟩]⟩, ⟨"2: avg(v)", [⟨.int 20, 2⟩]⟩] := by
  refine ⟨rfl, rfl, Description.namedAsSelected_iff.mpr rfl, rfl, ?_, rfl⟩
  rintro (⟨hlt, -⟩ | ⟨-, hbucket⟩)
  · exact Nat.not_lt_zero _ hlt
  · exact absurd hbucket (by decide)

end PanelSource
