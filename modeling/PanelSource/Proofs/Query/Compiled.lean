import PanelSource.Proofs.Stages
import PanelSource.Query.Statement

/-! # Which descriptions compile, and to what -/
namespace PanelSource

namespace Description

theorem requireTable_eq_ok_iff {table : String} {u : Unit} :
    requireTable table = .ok u ↔ Text.blank table = false := by
  unfold requireTable
  split <;> simp_all

theorem validateMetrics_eq_ok_iff {ms : List Metric} {u : Unit} :
    validateMetrics ms = .ok u ↔ ∀ m ∈ ms, m.validate = .ok () := by
  induction ms with
  | nil => simp [validateMetrics]
  | cons m ms ih =>
    have hbind : validateMetrics (m :: ms) = m.validate >>= fun _ => validateMetrics ms := rfl
    simp only [hbind, Outcome.bind_eq_ok_iff, ih, List.forall_mem_cons]
    exact ⟨fun ⟨_, hm, hms⟩ => ⟨hm, hms⟩, fun ⟨hm, hms⟩ => ⟨(), hm, hms⟩⟩

/-- A selection, as it stands once nothing is missing. -/
def selectText (d : Description) : String :=
  "SELECT " ++ ",".intercalate d.selectColumns ++ " FROM " ++ d.qualifiedTable ++ d.filterSql ++
    d.orderSql

/-- An aggregation, as it stands once nothing is missing. -/
def aggregateText (d : Description) : String :=
  "SELECT " ++ ", ".intercalate d.selectItems ++ " FROM " ++ d.qualifiedTable ++ d.filterSql ++
    " GROUP BY " ++ ", ".intercalate (d.bucket :: d.groupBy) ++ " ORDER BY time ASC"

theorem compileSelect_eq_ok_iff {d : Description} {sql : String} :
    d.compileSelect = .ok sql ↔
      Text.blank d.table = false ∧ d.selectColumns ≠ [] ∧ d.selectText = sql := by
  by_cases hs : d.selectColumns = []
  · simp only [compileSelect, hs, if_true, Outcome.bind_eq_ok_iff]
    simp
  · simp only [compileSelect, hs, if_false, Outcome.bind_eq_ok_iff, requireTable_eq_ok_iff]
    constructor
    · rintro ⟨_, ht, he⟩
      cases he
      exact ⟨ht, hs, rfl⟩
    · rintro ⟨ht, _, rfl⟩
      exact ⟨(), ht, rfl⟩

theorem compileAggregate_eq_ok_iff {d : Description} {sql : String} :
    d.compileAggregate = .ok sql ↔ Text.blank d.table = false ∧ d.metrics ≠ [] ∧
      (∀ m ∈ d.metrics, m.validate = .ok ()) ∧ d.aggregateText = sql := by
  by_cases hm : d.metrics = []
  · simp only [compileAggregate, hm, if_true, Outcome.bind_eq_ok_iff]
    simp
  · simp only [compileAggregate, hm, if_false, Outcome.bind_eq_ok_iff, requireTable_eq_ok_iff,
      validateMetrics_eq_ok_iff]
    constructor
    · rintro ⟨_, ht, _, hv, he⟩
      cases he
      exact ⟨ht, hm, hv, rfl⟩
    · rintro ⟨ht, _, hv, rfl⟩
      exact ⟨(), ht, (), hv, rfl⟩

theorem compile_select_iff {d : Description} {sql : String} (hmode : d.mode = .select) :
    d.compile = .ok sql ↔
      Text.blank d.table = false ∧ d.selectColumns ≠ [] ∧ d.selectText = sql := by
  rw [compile, hmode]
  exact compileSelect_eq_ok_iff

theorem compile_aggregate_iff {d : Description} {sql : String} (hmode : d.mode = .aggregate) :
    d.compile = .ok sql ↔ Text.blank d.table = false ∧ d.metrics ≠ [] ∧
      (∀ m ∈ d.metrics, m.validate = .ok ()) ∧ d.aggregateText = sql := by
  rw [compile, hmode]
  exact compileAggregate_eq_ok_iff

/-- What a statement selects. -/
def itemsSql (d : Description) : String :=
  if d.mode = .aggregate then ", ".intercalate d.selectItems else ",".intercalate d.selectColumns

/-- What stands behind the filter. -/
def closingSql (d : Description) : String :=
  if d.mode = .aggregate then
    " GROUP BY " ++ ", ".intercalate (d.bucket :: d.groupBy) ++ " ORDER BY time ASC"
  else d.orderSql

/-- Statements of both kinds have their filter in the same place. -/
theorem eq_of_compile {d : Description} {sql : String} (hmode : d.mode ≠ .sql)
    (hc : d.compile = .ok sql) :
    sql = "SELECT " ++ d.itemsSql ++ " FROM " ++ d.qualifiedTable ++ d.filterSql ++
      d.closingSql := by
  rw [itemsSql, closingSql]
  cases hm : d.mode with
  | sql => exact absurd hm hmode
  | select =>
    obtain ⟨-, -, rfl⟩ := (compile_select_iff hm).mp hc
    rw [selectText, if_neg (by decide), if_neg (by decide)]
  | aggregate =>
    obtain ⟨-, -, -, rfl⟩ := (compile_aggregate_iff hm).mp hc
    rw [aggregateText, if_pos rfl, if_pos rfl]
    simp only [String.append_assoc]

end Description
end PanelSource
