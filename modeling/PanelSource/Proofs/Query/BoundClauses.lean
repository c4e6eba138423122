import PanelSource.Proofs.Query.Compiled
import PanelSource.Proofs.Query.Filter

/-! # Bounds as clauses

A bound in milliseconds stands in the statement like a clause that compares the time column with a
number. A temporal column is bounded by a call, and no number is written like one. -/
namespace PanelSource.Description

/-- The bounds as clauses with numbers. -/
def boundClauses (d : Description) : List Clause :=
  (d.timeFrom.map fun ms => ⟨"AND", d.effectiveTimeColumn, ">", .number (.int ms)⟩).toList ++
    (d.timeTo.map fun ms => ⟨"AND", d.effectiveTimeColumn, "<", .number (.int ms)⟩).toList

/-- No bounds, and a clause for each of them behind all others. -/
def boundedByClauses (d : Description) : Description :=
  { d with clauses := d.clauses ++ d.boundClauses, timeFrom := none, timeTo := none }

/-- The time column as one of milliseconds. -/
def inMillis (d : Description) : Description := { d with timeFormat := some .epochMs }

variable {d : Description}

theorem entry_boundClauses (d : Description) :
    d.boundClauses.map Clause.entry = d.inMillis.boundEntries := by
  rw [boundClauses, boundEntries, List.map_append]
  have hfrom : d.inMillis.timeFrom = d.timeFrom := rfl
  have hto : d.inMillis.timeTo = d.timeTo := rfl
  rw [hfrom, hto]
  cases d.timeFrom <;> cases d.timeTo <;> rfl

/-- The clauses say in milliseconds what the bounds say. -/
theorem filterSql_boundedByClauses (d : Description) :
    d.boundedByClauses.filterSql = d.inMillis.filterSql := by
  have hentries : d.boundedByClauses.filterEntries = d.inMillis.filterEntries := by
    rw [filterEntries, filterEntries, ← entry_boundClauses]
    simp [boundedByClauses, inMillis, boundEntries]
  rw [filterSql_eq, filterSql_eq, hentries]

theorem filterSql_inMillis (h : d.effectiveTimeFormat = .epochMs) :
    d.inMillis.filterSql = d.filterSql := by
  have hentries : d.inMillis.boundEntries = d.boundEntries := by
    rw [boundEntries, boundEntries, h]
    rfl
  rw [filterSql_eq, filterSql_eq, filterEntries, filterEntries, hentries]
  rfl

theorem length_timestamp_instantSql (ms : Int) :
    (TimeFormat.timestamp.instantSql ms).length =
      (TimeFormat.epochMs.instantSql ms).length + 10 := by
  have hcall : "epoch_ms(".length = 9 ∧ ")".length = 1 := by decide
  simp only [TimeFormat.instantSql, String.length_append]
  omega

/-- Calls are longer than numbers. -/
theorem length_bounds_inMillis_lt (h : d.effectiveTimeFormat = .timestamp)
    (hb : d.bounded = true) :
    (" AND ".intercalate d.inMillis.bounds).length < (" AND ".intercalate d.bounds).length := by
  have hcolumn : d.inMillis.effectiveTimeColumn = d.effectiveTimeColumn := rfl
  have hmillis : d.inMillis.effectiveTimeFormat = .epochMs := rfl
  have hends : d.inMillis.timeFrom = d.timeFrom ∧ d.inMillis.timeTo = d.timeTo := ⟨rfl, rfl⟩
  simp only [bounds, hends]
  rw [bounded] at hb
  cases hfrom : d.timeFrom <;> cases hto : d.timeTo
  case none.none => simp [hfrom, hto] at hb
  all_goals
    simp [lowerBound, upperBound, instantSql, hcolumn, hmillis, h, length_timestamp_instantSql]
    try omega

theorem filterSql_inMillis_ne (h : d.effectiveTimeFormat = .timestamp) (hb : d.bounded = true) :
    d.inMillis.filterSql ≠ d.filterSql := by
  have hbounded : d.inMillis.bounded = true := hb
  have hclauses : d.inMillis.clauses = d.clauses := rfl
  intro heq
  rw [filterSql, filterSql, hbounded, hb, hclauses, String.append_right_inj] at heq
  have hbounds := length_bounds_inMillis_lt h hb
  simp only [if_true, String.append_right_inj] at heq
  exact absurd (congrArg String.length heq) (Nat.ne_of_lt hbounds)

/-- Clauses and bounds stand in the statement as its filter. -/
theorem compile_boundedByClauses (h : d.boundedByClauses.filterSql = d.filterSql) :
    d.boundedByClauses.compile = d.compile := by
  have hselect : d.boundedByClauses.compileSelect = d.compileSelect := by
    rw [compileSelect, compileSelect, h]
    rfl
  have haggregate : d.boundedByClauses.compileAggregate = d.compileAggregate := by
    rw [compileAggregate, compileAggregate, h]
    rfl
  rw [compile, compile, hselect, haggregate]
  rfl

theorem filterSql_eq_of_compile {sql : String} (hmode : d.mode ≠ .sql) (hc : d.compile = .ok sql)
    (hc' : d.boundedByClauses.compile = .ok sql) :
    d.boundedByClauses.filterSql = d.filterSql := by
  have htext := eq_of_compile hmode hc
  have htext' : sql = "SELECT " ++ d.itemsSql ++ " FROM " ++ d.qualifiedTable ++
      d.boundedByClauses.filterSql ++ d.closingSql :=
    eq_of_compile (d := d.boundedByClauses) hmode hc'
  rw [htext, String.append_left_inj, String.append_right_inj] at htext'
  exact htext'.symm

/-- Bounds in milliseconds may be given as clauses: nothing else is compiled, and nothing else is
refused. Of statements with bounds these are the only ones. -/
theorem bounds_as_clauses (d : Description) :
    d.boundedByClauses.bounded = false ∧
      d.boundedByClauses.effectiveTimeFormat = d.effectiveTimeFormat ∧
      (d.effectiveTimeFormat = .epochMs → d.boundedByClauses.compile = d.compile) ∧
      ∀ sql, d.mode ≠ .sql → d.bounded = true → d.compile = .ok sql →
        (d.boundedByClauses.compile = d.compile ↔ d.effectiveTimeFormat = .epochMs) := by
  have hmillis (h : d.effectiveTimeFormat = .epochMs) : d.boundedByClauses.compile = d.compile :=
    compile_boundedByClauses ((filterSql_boundedByClauses d).trans (filterSql_inMillis h))
  refine ⟨rfl, rfl, hmillis, fun sql hmode hb hc => ⟨fun heq => ?_, hmillis⟩⟩
  cases hformat : d.effectiveTimeFormat with
  | epochMs => rfl
  | timestamp =>
    have hfilter := filterSql_eq_of_compile hmode hc (heq.trans hc)
    rw [filterSql_boundedByClauses] at hfilter
    exact absurd hfilter (filterSql_inMillis_ne hformat hb)

/-- Buckets of a column of milliseconds, from before 1970 on. -/
def negativeWindow : Description :=
  { table := "t", metrics := [⟨.avg, "v"⟩], clauses := [⟨"OR", "rack", "=", .text "a"⟩],
    timeColumn := some "ts", groupInterval := some "minute", timeFormat := some .epochMs,
    timeFrom := some (-5), timeTo := some 9 }

theorem bounds_as_clauses_negativeWindow :
    negativeWindow.effectiveTimeFormat = .epochMs ∧
      negativeWindow.boundedByClauses.clauses = [⟨"OR", "rack", "=", .text "a"⟩,
        ⟨"AND", "ts", ">", .number (.int (-5))⟩, ⟨"AND", "ts", "<", .number (.int 9)⟩] ∧
      negativeWindow.boundedByClauses.compile = .ok ("SELECT date_trunc('minute', ts) AS time, " ++
        "avg(v) AS \"avg(v)\" FROM t WHERE rack = 'a' AND ts > -5 AND ts < 9 " ++
        "GROUP BY date_trunc('minute', ts) ORDER BY time ASC") :=
  ⟨rfl, rfl, ((bounds_as_clauses negativeWindow).2.2.1 rfl).trans rfl⟩

end PanelSource.Description
