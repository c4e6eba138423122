import PanelSource.Proofs.Query.Compiled
import PanelSource.Proofs.Query.Filter

/-! # Filters as a store reads them

`AND` binds tighter than `OR`, so a filter is a list of alternatives, and the bounds at its end
belong to the last alternative only. -/
namespace PanelSource

/-- The entries of a filter with their positions: alternatives linked by `OR`, each of them a run
of comparisons linked by `AND`. -/
abbrev FilterReading := List (List (FilterEntry × Nat))

namespace FilterReading

def runSql (run : List (FilterEntry × Nat)) : String :=
  " AND ".intercalate (run.map fun p => p.1.comparison)

def sql (alternatives : FilterReading) : String := " OR ".intercalate (alternatives.map runSql)

/-- The comparisons have truth values by their positions. -/
def Satisfied (v : Nat → Bool) (alternatives : FilterReading) : Prop :=
  ∃ run ∈ alternatives, ∀ p ∈ run, v p.2 = true

/-- The entries from position `n` on, behind a run that is not closed. -/
def behind (run : List (FilterEntry × Nat)) (n : Nat) : List FilterEntry → FilterReading
  | [] => [run]
  | e :: es =>
    if e.condition = "OR" then run :: behind [(e, n)] (n + 1) es
    else behind (run ++ [(e, n)]) (n + 1) es

/-- The condition of the first entry links it to nothing. -/
def ofEntries : List FilterEntry → FilterReading
  | [] => []
  | e :: es => behind [(e, 0)] 1 es

theorem runSql_concat {run : List (FilterEntry × Nat)} (h : run ≠ []) (e : FilterEntry) (n : Nat) :
    runSql (run ++ [(e, n)]) = runSql run ++ " AND " ++ e.comparison := by
  obtain ⟨p, ps, rfl⟩ := List.exists_cons_of_ne_nil h
  simp only [runSql, List.cons_append, List.map_cons, List.map_append, List.map_nil,
    Cutting.intercalate_cons, String.join_append, String.join_cons, String.join_nil,
    String.append_empty, String.append_assoc]

theorem sql_cons {run : List (FilterEntry × Nat)} {alternatives : FilterReading}
    (h : alternatives ≠ []) :
    sql (run :: alternatives) = runSql run ++ " OR " ++ sql alternatives := by
  obtain ⟨r, rs, rfl⟩ := List.exists_cons_of_ne_nil h
  simp only [sql, List.map_cons, String.intercalate_cons_cons]

theorem behind_ne_nil (run : List (FilterEntry × Nat)) (n : Nat) (es : List FilterEntry) :
    behind run n es ≠ [] := by
  induction es generalizing run n with
  | nil => exact List.cons_ne_nil _ _
  | cons e es ih =>
    rw [behind]
    split
    · exact List.cons_ne_nil _ _
    · exact ih _ _

/-- The alternatives are written as the entries are, without a parenthesis. -/
theorem sql_behind {es : List FilterEntry}
    (hes : ∀ e ∈ es, e.condition = "AND" ∨ e.condition = "OR") {run : List (FilterEntry × Nat)}
    (hrun : run ≠ []) (n : Nat) :
    sql (behind run n es) = runSql run ++ FilterEntry.entriesSql es := by
  induction es generalizing run n with
  | nil => simp [behind, sql, FilterEntry.entriesSql]
  | cons e es ih =>
    rw [List.forall_mem_cons] at hes
    have hentries : FilterEntry.entriesSql (e :: es) = e.sql ++ FilterEntry.entriesSql es := by
      simp [FilterEntry.entriesSql]
    rw [behind, hentries]
    rcases hes.1 with hand | hor
    · rw [if_neg (by rw [hand]; decide), ih hes.2 (by simp), runSql_concat hrun,
        FilterEntry.sql_of_and hand]
      simp only [String.append_assoc]
    · have hsql : e.sql = " OR " ++ e.comparison := by
        have hword : " OR " = " " ++ "OR" ++ " " := rfl
        rw [FilterEntry.sql, hor, if_neg (by decide), hword]
        simp only [String.append_assoc]
      rw [if_pos hor, sql_cons (behind_ne_nil _ _ _), ih hes.2 (List.cons_ne_nil _ _), hsql]
      simp [runSql, String.append_assoc]

theorem sql_ofEntries {e : FilterEntry} {es : List FilterEntry} (he : e.condition = "")
    (hes : ∀ f ∈ es, f.condition = "AND" ∨ f.condition = "OR") :
    FilterEntry.filterSql (e :: es) = " WHERE " ++ sql (ofEntries (e :: es)) := by
  have hword : " WHERE " = " WHERE" ++ " " := rfl
  have hrun : runSql [(e, 0)] = e.comparison := by simp [runSql]
  have hfirst : e.sql = " " ++ e.comparison := by
    rw [FilterEntry.sql, if_pos he, String.empty_append]
  rw [FilterEntry.filterSql_of_ne_nil (List.cons_ne_nil _ _), ofEntries,
    sql_behind hes (List.cons_ne_nil _ _), hrun, FilterEntry.entriesSql, List.map_cons,
    String.join_cons, hfirst, hword]
  simp only [FilterEntry.entriesSql, String.append_assoc]

/-- Without an `OR` all comparisons stand in one run. -/
theorem behind_of_no_or {es : List FilterEntry} (hes : ∀ e ∈ es, e.condition ≠ "OR")
    (run : List (FilterEntry × Nat)) (n : Nat) : behind run n es = [run ++ es.zipIdx n] := by
  induction es generalizing run n with
  | nil => simp [behind]
  | cons e es ih =>
    rw [List.forall_mem_cons] at hes
    rw [behind, if_neg hes.1, ih hes.2]
    simp [List.zipIdx_cons]

/-- An `OR` closes an alternative in front of itself. -/
theorem exists_run_of_or {es : List FilterEntry} (h : ∃ e ∈ es, e.condition = "OR")
    (run : List (FilterEntry × Nat)) (n : Nat) (more : List FilterEntry) :
    ∃ r ∈ behind run n (es ++ more), ∀ p ∈ r, p ∈ run ∨ p.2 < n + es.length := by
  induction es generalizing run n with
  | nil => simp at h
  | cons e es ih =>
    rw [List.cons_append, behind]
    by_cases hor : e.condition = "OR"
    · rw [if_pos hor]
      exact ⟨run, List.mem_cons_self, fun p hp => .inl hp⟩
    · rw [if_neg hor]
      obtain ⟨f, hf, hfor⟩ := h
      have hrest : ∃ f ∈ es, f.condition = "OR" := by
        rcases List.mem_cons.mp hf with rfl | hf
        · exact absurd hfor hor
        · exact ⟨f, hf, hfor⟩
      obtain ⟨r, hr, hplaces⟩ := ih hrest (run ++ [(e, n)]) (n + 1)
      refine ⟨r, hr, fun p hp => ?_⟩
      rcases hplaces p hp with hp | hp
      · rcases List.mem_append.mp hp with hp | hp
        · exact .inl hp
        · rw [List.mem_singleton.mp hp, List.length_cons]
          exact .inr (by omega)
      · rw [List.length_cons]
        exact .inr (by omega)

end FilterReading

namespace Description

/-- The filter of a statement as a store reads it. -/
def filterReading (d : Description) : FilterReading := .ofEntries d.filterEntries

/-- The bounds stand behind all clauses. -/
def BoundsHold (d : Description) (v : Nat → Bool) : Prop :=
  ∀ n < d.boundEntries.length, v (d.clauses.length + n) = true

theorem length_filterEntries (d : Description) :
    d.filterEntries.length = d.clauses.length + d.boundEntries.length := by
  have hlength (es : List FilterEntry) : (FilterEntry.unlinked es).length = es.length := by
    cases es <;> rfl
  rw [filterEntries, hlength, List.length_append, List.length_map]

/-- The first entry is linked to nothing, and every other one by its clause or as a bound. -/
theorem filterEntries_eq_cons {d : Description} (hb : d.bounded = true) :
    ∃ e es, d.filterEntries = e :: es ∧ e.condition = "" ∧
      ∀ f ∈ es, (∃ c ∈ d.clauses.tail, f = c.entry) ∨ f.condition = "AND" := by
  rw [filterEntries]
  cases d.clauses with
  | nil =>
    obtain ⟨e, es, he⟩ := List.exists_cons_of_ne_nil (bounded_iff.mp hb)
    refine ⟨{ e with condition := "" }, es, by rw [he]; rfl, rfl, fun f hf => .inr ?_⟩
    exact condition_of_mem_boundEntries (he ▸ List.mem_cons_of_mem e hf)
  | cons c cs =>
    refine ⟨{ c.entry with condition := "" }, cs.map Clause.entry ++ d.boundEntries, rfl, rfl, ?_⟩
    intro f hf
    rcases List.mem_append.mp hf with hf | hf
    · obtain ⟨c', hc', rfl⟩ := List.mem_map.mp hf
      exact .inl ⟨c', hc', rfl⟩
    · exact .inr (condition_of_mem_boundEntries hf)

/-- A filter without an `OR` is one run. -/
theorem filterReading_of_and {d : Description} (hb : d.bounded = true)
    (hand : ∀ c ∈ d.clauses.tail, c.condition = "AND") :
    d.filterReading = [d.filterEntries.zipIdx] := by
  obtain ⟨e, es, hes, -, hlinks⟩ := filterEntries_eq_cons hb
  have hno : ∀ f ∈ es, f.condition ≠ "OR" := by
    intro f hf
    have hcondition : f.condition = "AND" := by
      rcases hlinks f hf with ⟨c, hc, rfl⟩ | hf
      · exact hand c hc
      · exact hf
    rw [hcondition]
    decide
  rw [filterReading, hes, FilterReading.ofEntries, FilterReading.behind_of_no_or hno]
  rfl

/-- An alternative in front of an `OR` has no bound. -/
theorem exists_run_of_or {d : Description} {c : Clause} (hc : c ∈ d.clauses.tail)
    (hor : c.condition = "OR") :
    ∃ run ∈ d.filterReading, ∀ p ∈ run, p.2 < d.clauses.length := by
  rw [filterReading, filterEntries]
  cases hcs : d.clauses with
  | nil => rw [hcs] at hc; exact absurd hc List.not_mem_nil
  | cons c₀ cs =>
    rw [hcs, List.tail_cons] at hc
    have hlinked : ∃ e ∈ cs.map Clause.entry, e.condition = "OR" :=
      ⟨c.entry, List.mem_map_of_mem hc, hor⟩
    obtain ⟨run, hrun, hplaces⟩ := FilterReading.exists_run_of_or hlinked
      [({ c₀.entry with condition := "" }, 0)] 1 d.boundEntries
    refine ⟨run, hrun, fun p hp => ?_⟩
    rw [List.length_cons]
    rcases hplaces p hp with hp | hp
    · rw [List.mem_singleton.mp hp]
      exact Nat.succ_pos _
    · rw [List.length_map] at hp
      omega

/-- The bounds of a statement hold wherever its filter does exactly when no clause is linked
by `OR`. -/
theorem bounds_hold_iff {d : Description} {sql : String} (hmode : d.mode ≠ .sql)
    (hc : d.compile = .ok sql) (hb : d.bounded = true)
    (hlinks : ∀ c ∈ d.clauses.tail, c.condition = "AND" ∨ c.condition = "OR") :
    sql = "SELECT " ++ d.itemsSql ++ " FROM " ++ d.qualifiedTable ++
        (" WHERE " ++ d.filterReading.sql) ++ d.closingSql ∧
      ((∀ v, d.filterReading.Satisfied v → d.BoundsHold v) ↔
        ∀ c ∈ d.clauses.tail, c.condition = "AND") := by
  constructor
  · obtain ⟨e, es, hes, he, htail⟩ := filterEntries_eq_cons hb
    have hwords : ∀ f ∈ es, f.condition = "AND" ∨ f.condition = "OR" := by
      intro f hf
      rcases htail f hf with ⟨c, hc, rfl⟩ | hf
      · exact hlinks c hc
      · exact .inl hf
    rw [filterReading, hes, ← FilterReading.sql_ofEntries he hwords, ← hes, ← filterSql_eq]
    exact eq_of_compile hmode hc
  · constructor
    · intro h c hc
      by_contra hnot
      obtain ⟨run, hrun, hplaces⟩ := exists_run_of_or hc ((hlinks c hc).resolve_left hnot)
      have hbounds := h (fun n => decide (n < d.clauses.length))
        ⟨run, hrun, fun p hp => decide_eq_true (hplaces p hp)⟩
      have hfirst := hbounds 0 (List.length_pos_iff.mpr (bounded_iff.mp hb))
      simp at hfirst
    · rintro hand v ⟨run, hrun, hv⟩ n hn
      rw [filterReading_of_and hb hand, List.mem_singleton] at hrun
      have hlt : d.clauses.length + n < d.filterEntries.length := by
        rw [length_filterEntries]
        omega
      refine hv (d.filterEntries[d.clauses.length + n], d.clauses.length + n) ?_
      rw [hrun, List.mem_zipIdx_iff_getElem?]
      exact List.getElem?_eq_getElem hlt

/-- Two clauses linked by `AND`, a third one by `OR`, and both bounds. -/
def spareRack : Description :=
  { table := "t", metrics := [⟨.avg, "v"⟩],
    clauses := [⟨"OR", "rack", "=", .number (.int 1)⟩, ⟨"AND", "dc", "=", .text "eu"⟩,
      ⟨"OR", "rack", "=", .number (.int 2)⟩],
    groupInterval := some "minute", timeFrom := some 5, timeTo := some 9 }

theorem bounds_hold_iff_spareRack :
    ∃ sql, spareRack.mode ≠ .sql ∧ spareRack.compile = .ok sql ∧ spareRack.bounded = true ∧
      (∀ c ∈ spareRack.clauses.tail, c.condition = "AND" ∨ c.condition = "OR") ∧
      ¬∀ v, spareRack.filterReading.Satisfied v → spareRack.BoundsHold v := by
  have hlinks : ∀ c ∈ spareRack.clauses.tail, c.condition = "AND" ∨ c.condition = "OR" := by
    decide
  refine ⟨_, by decide, rfl, rfl, hlinks, fun h => ?_⟩
  have hand := (bounds_hold_iff (by decide) rfl rfl hlinks).2.mp h
  exact absurd hand (by decide)

/-- The first of two clauses is enough, at any time. -/
def eitherNumber : Description :=
  { mode := .select, table := "t", selectColumns := ["a"],
    clauses := [⟨"", "x", "=", .number (.int 1)⟩, ⟨"OR", "y", "=", .number (.int 2)⟩],
    timeFrom := some 5 }

theorem eitherNumber_unbounded :
    eitherNumber.compile = .ok "SELECT a FROM t WHERE x = 1 OR y = 2 AND time > 5" ∧
      eitherNumber.bounded = true ∧
      (∀ c ∈ eitherNumber.clauses.tail, c.condition = "AND" ∨ c.condition = "OR") ∧
      ∃ v, eitherNumber.filterReading.Satisfied v ∧ ¬eitherNumber.BoundsHold v := by
  refine ⟨rfl, rfl, by decide, fun n => n == 0, ?_, ?_⟩
  · exact ⟨_, List.mem_cons_self, by decide⟩
  · intro h
    exact absurd (h 0 (by decide)) (by decide)

end Description
end PanelSource
