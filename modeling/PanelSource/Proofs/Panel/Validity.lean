import PanelSource.Proofs.Panel.Preparation
import PanelSource.Proofs.Query.Compiled
import PanelSource.Proofs.Stages

/-! # Valid descriptions

A description compiles when it breaks no rule of its mode, and else fails by the first rule that it
breaks. No rule looks at a field that can be filled in, so that neither defaults nor a range make a
description valid or invalid. -/
namespace PanelSource

/-- When a rule is broken, and what a description that breaks it lacks. -/
structure Rule where
  broken : Prop
  lack : Shortcoming

def Rule.Reports (r : Rule) (e : QueryError) : Prop := r.broken ∧ e = .invalidDescription r.lack

/-- A metric has a kind and a column. -/
def Metric.rules (m : Metric) : List Rule :=
  [⟨Text.blank m.kind.name = true, .metricWithoutKind m.column⟩,
    ⟨Text.blank m.column = true, .metricWithoutColumn m.kind.name⟩]

/-- The rules of a mode in the order in which they are looked at, those of the metrics in turn. -/
def Description.rules (d : Description) : List Rule :=
  match d.mode with
  | .aggregate => ⟨Text.blank d.table = true, .blankTable⟩ :: ⟨d.metrics = [], .noMetric⟩ ::
      d.metrics.flatMap Metric.rules
  | .select => [⟨Text.blank d.table = true, .blankTable⟩, ⟨d.selectColumns = [], .noSelectColumn⟩]
  | .sql => [⟨∀ s, d.query = some s → Text.blank s = true, .noStatement⟩]

namespace Rule

theorem exists_reports_iff {r : Rule} : (∃ e, r.Reports e) ↔ r.broken := by
  simp [Reports]

def check (broken : Prop) [Decidable broken] (lack : Shortcoming) : Except QueryError Unit :=
  if broken then .error (.invalidDescription lack) else .ok ()

theorem check_failsAs {broken : Prop} [Decidable broken] {lack : Shortcoming} :
    FailsAs (check broken lack) [Reports ⟨broken, lack⟩] := by
  refine failsAs_of_iff fun e => ?_
  by_cases h : broken
  · simp [check, h, Reports, eq_comm]
  · simp [check, h, Reports]

end Rule

theorem Metric.validate_failsAs (m : Metric) : FailsAs m.validate (m.rules.map Rule.Reports) := by
  have hchecks : m.validate =
      Rule.check (Text.blank m.kind.name = true) (.metricWithoutKind m.column) >>= fun _ =>
        Rule.check (Text.blank m.column = true) (.metricWithoutColumn m.kind.name) := by
    rw [validate, Rule.check, Rule.check]
    split <;> rfl
  rw [hchecks]
  exact Rule.check_failsAs.bind fun _ _ => Rule.check_failsAs

namespace Description

theorem validateMetrics_failsAs (ms : List Metric) :
    FailsAs (validateMetrics ms) ((ms.flatMap Metric.rules).map Rule.Reports) := by
  induction ms with
  | nil => exact failsAs_ok ()
  | cons m ms ih =>
    rw [List.flatMap_cons, List.map_append]
    exact m.validate_failsAs.bind fun _ _ => ih

variable {d : Description}

theorem compileSelect_failsAs (hmode : d.mode = .select) :
    FailsAs d.compileSelect (d.rules.map Rule.Reports) := by
  have hchecks : d.compileSelect = do
      Rule.check (Text.blank d.table = true) .blankTable
      Rule.check (d.selectColumns = []) .noSelectColumn
      return d.selectText := by
    rw [compileSelect, requireTable, Rule.check, Rule.check]
    split <;> split <;> rfl
  rw [hchecks, rules, hmode]
  exact Rule.check_failsAs.bind fun _ _ => Rule.check_failsAs.bind fun _ _ => failsAs_ok _

theorem compileAggregate_failsAs (hmode : d.mode = .aggregate) :
    FailsAs d.compileAggregate (d.rules.map Rule.Reports) := by
  have hchecks : d.compileAggregate = do
      Rule.check (Text.blank d.table = true) .blankTable
      Rule.check (d.metrics = []) .noMetric
      validateMetrics d.metrics
      return d.aggregateText := by
    rw [compileAggregate, requireTable, Rule.check, Rule.check]
    split <;> split <;> rfl
  have hmetrics := (validateMetrics_failsAs d.metrics).bind fun _ _ => failsAs_ok d.aggregateText
  rw [List.append_nil] at hmetrics
  rw [hchecks, rules, hmode]
  exact Rule.check_failsAs.bind fun _ _ => Rule.check_failsAs.bind fun _ _ => hmetrics

/-- Without a text there is nothing but blanks either. -/
theorem trim_query_iff :
    Text.trim (d.query.getD "") = "" ↔ ∀ s, d.query = some s → Text.blank s = true := by
  rw [Text.trim, String.ofList_eq_empty_iff, Text.trimChars_eq_nil_iff]
  cases d.query with
  | none => simp
  | some s => simp [Text.blank]

theorem compileSql_failsAs (hmode : d.mode = .sql) :
    FailsAs d.compileSql (d.rules.map Rule.Reports) := by
  rw [rules, hmode]
  refine failsAs_of_iff fun e => ?_
  rw [compileSql, Rule.Reports, ← trim_query_iff]
  by_cases h : Text.trim (d.query.getD "") = ""
  · simp [h, eq_comm]
  · simp [h]

theorem compile_failsAs (d : Description) : FailsAs d.compile (d.rules.map Rule.Reports) := by
  unfold compile
  cases hmode : d.mode with
  | aggregate => exact compileAggregate_failsAs hmode
  | select => exact compileSelect_failsAs hmode
  | sql => exact compileSql_failsAs hmode

theorem rules_prepare (defaults : Defaults) (range : Option TimeRange) (d : Description) :
    (d.prepare defaults range).rules = d.rules := by
  rw [prepare_eq]
  rfl

theorem exists_compile_iff (d : Description) :
    (∃ sql, d.compile = .ok sql) ↔ ∀ r ∈ d.rules, ¬r.broken := by
  rw [d.compile_failsAs.exists_ok_iff, List.forall_mem_map]
  simp only [← not_exists, Rule.exists_reports_iff]

/-- A description compiles unless it breaks a rule of its mode, and fails by the first that it
breaks. However it is prepared, it compiles or fails in the same way. -/
theorem compile_fails_iff (d : Description) :
    ((∃ sql, d.compile = .ok sql) ↔ ∀ r ∈ d.rules, ¬r.broken) ∧
      (∀ e, d.compile = .error e ↔ FirstOf (d.rules.map Rule.Reports) e) ∧
      ∀ defaults range,
        ((∃ sql, (d.prepare defaults range).compile = .ok sql) ↔ ∃ sql, d.compile = .ok sql) ∧
          ∀ e, (d.prepare defaults range).compile = .error e ↔ d.compile = .error e := by
  refine ⟨d.exists_compile_iff, d.compile_failsAs, fun defaults range => ⟨?_, fun e => ?_⟩⟩
  · rw [exists_compile_iff, exists_compile_iff, rules_prepare]
  · rw [compile_failsAs, compile_failsAs, rules_prepare]

end Description
end PanelSource
