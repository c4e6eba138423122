import PanelSource.Proofs.Text.Cutting
import PanelSource.Query.Statement

/-! # Filters as lists of comparisons

A bound is a comparison like any other: it is linked by `AND`, and where it comes first its
condition is left out as that of a clause is. -/
namespace PanelSource

/-- What an entry of a filter compares with. -/
inductive Comparand
  | operand (x : Operand)
  | instant (ms : Int)
  deriving DecidableEq

def Comparand.sql : Comparand → String
  | operand x => x.sql
  | instant ms => TimeFormat.timestamp.instantSql ms

/-- An instant as the format holds it: milliseconds are a number. -/
def TimeFormat.comparand : TimeFormat → Int → Comparand
  | epochMs, ms => .operand (.number (.int ms))
  | timestamp, ms => .instant ms

theorem TimeFormat.sql_comparand (f : TimeFormat) (ms : Int) :
    (f.comparand ms).sql = f.instantSql ms := by
  cases f <;> rfl

@[ext]
structure FilterEntry where
  condition : String
  left : String
  operator : String
  right : Comparand
  deriving DecidableEq

def Clause.entry (c : Clause) : FilterEntry :=
  ⟨c.condition, c.left, c.operator, .operand c.right⟩

namespace FilterEntry

def comparison (e : FilterEntry) : String :=
  e.left ++ " " ++ e.operator ++ " " ++ e.right.sql

def sql (e : FilterEntry) : String :=
  (if e.condition = "" then "" else " " ++ e.condition) ++ (" " ++ e.comparison)

/-- The first entry has nothing to link to. -/
def unlinked : List FilterEntry → List FilterEntry
  | [] => []
  | e :: es => { e with condition := "" } :: es

def entriesSql (es : List FilterEntry) : String := String.join (es.map sql)

def filterSql (es : List FilterEntry) : String :=
  if es = [] then "" else " WHERE" ++ entriesSql es

theorem filterSql_of_ne_nil {es : List FilterEntry} (h : es ≠ []) :
    filterSql es = " WHERE" ++ entriesSql es := if_neg h

theorem entriesSql_append (es fs : List FilterEntry) :
    entriesSql (es ++ fs) = entriesSql es ++ entriesSql fs := by
  simp [entriesSql]

theorem unlinked_eq_nil_iff {es : List FilterEntry} : unlinked es = [] ↔ es = [] := by
  cases es <;> simp [unlinked]

theorem unlinked_ne_nil {es : List FilterEntry} (h : es ≠ []) : unlinked es ≠ [] :=
  unlinked_eq_nil_iff.not.mpr h

theorem unlinked_append {es : List FilterEntry} (h : es ≠ []) (fs : List FilterEntry) :
    unlinked (es ++ fs) = unlinked es ++ fs := by
  cases es with
  | nil => exact absurd rfl h
  | cons e es => rfl

theorem sql_of_and {e : FilterEntry} (h : e.condition = "AND") :
    e.sql = " AND " ++ e.comparison := by
  have hword : " AND " = " " ++ "AND" ++ " " := rfl
  rw [sql, h, hword, if_neg (by decide), String.append_assoc, String.append_assoc,
    String.append_assoc]

theorem entriesSql_of_and {e : FilterEntry} {es : List FilterEntry}
    (h : ∀ f ∈ e :: es, f.condition = "AND") :
    entriesSql (e :: es) = " AND " ++ " AND ".intercalate ((e :: es).map comparison) := by
  have hes : es.map sql = (es.map comparison).map (" AND " ++ ·) := by
    rw [List.map_map]
    exact List.map_congr_left fun f hf => sql_of_and (h f (List.mem_cons_of_mem _ hf))
  rw [entriesSql, List.map_cons, String.join_cons, sql_of_and (h e List.mem_cons_self), hes,
    List.map_cons, Cutting.intercalate_cons, String.append_assoc]

theorem entriesSql_unlinked_of_and {e : FilterEntry} {es : List FilterEntry}
    (h : ∀ f ∈ es, f.condition = "AND") :
    entriesSql (unlinked (e :: es)) = " " ++ " AND ".intercalate ((e :: es).map comparison) := by
  have hes : es.map sql = (es.map comparison).map (" AND " ++ ·) := by
    rw [List.map_map]
    exact List.map_congr_left fun f hf => sql_of_and (h f hf)
  rw [unlinked, entriesSql, List.map_cons, String.join_cons, hes, List.map_cons,
    Cutting.intercalate_cons]
  simp [sql, comparison, String.append_assoc]

end FilterEntry

theorem Clause.listSql_eq (cs : List Clause) :
    Clause.listSql cs = FilterEntry.entriesSql (FilterEntry.unlinked (cs.map Clause.entry)) := by
  cases cs with
  | nil => rfl
  | cons c cs =>
    have hlinked (c : Clause) : c.entry.sql = c.linked := by
      simp only [FilterEntry.sql, FilterEntry.comparison, entry, linked, Clause.comparison,
        Comparand.sql, String.append_assoc]
      rfl
    have hrest : (cs.map Clause.entry).map FilterEntry.sql = cs.map Clause.linked := by
      rw [List.map_map]
      exact List.map_congr_left fun c _ => hlinked c
    rw [List.map_cons, FilterEntry.unlinked, FilterEntry.entriesSql, List.map_cons, hrest,
      String.join_cons, listSql]
    simp [FilterEntry.sql, FilterEntry.comparison, entry, Clause.comparison, Comparand.sql,
      String.append_assoc]

namespace Description

def boundEntries (d : Description) : List FilterEntry :=
  (d.timeFrom.map fun ms =>
      ⟨"AND", d.effectiveTimeColumn, ">", d.effectiveTimeFormat.comparand ms⟩).toList ++
    (d.timeTo.map fun ms =>
      ⟨"AND", d.effectiveTimeColumn, "<", d.effectiveTimeFormat.comparand ms⟩).toList

/-- The clauses, and the bounds behind them. -/
def filterEntries (d : Description) : List FilterEntry :=
  FilterEntry.unlinked (d.clauses.map Clause.entry ++ d.boundEntries)

theorem bounded_iff {d : Description} : d.bounded = true ↔ d.boundEntries ≠ [] := by
  unfold bounded boundEntries
  cases d.timeFrom <;> cases d.timeTo <;> simp

theorem boundEntries_eq_nil {d : Description} (h : ¬d.bounded = true) : d.boundEntries = [] := by
  by_contra hne
  exact h (bounded_iff.mpr hne)

theorem condition_of_mem_boundEntries {d : Description} {e : FilterEntry}
    (h : e ∈ d.boundEntries) : e.condition = "AND" := by
  simp only [boundEntries, List.mem_append, Option.mem_toList, Option.map_eq_some_iff] at h
  rcases h with ⟨ms, -, rfl⟩ | ⟨ms, -, rfl⟩ <;> rfl

theorem bounds_eq (d : Description) : d.bounds = d.boundEntries.map FilterEntry.comparison := by
  unfold bounds boundEntries
  cases d.timeFrom <;> cases d.timeTo <;>
    simp [FilterEntry.comparison, lowerBound, upperBound, instantSql, TimeFormat.sql_comparand,
      String.append_assoc]

/-- A filter as it is written is the list of its entries. -/
theorem filterSql_eq (d : Description) : d.filterSql = FilterEntry.filterSql d.filterEntries := by
  have hand : ∀ e ∈ d.boundEntries, e.condition = "AND" := fun e => condition_of_mem_boundEntries
  rw [filterSql, filterEntries, Clause.listSql_eq, bounds_eq]
  by_cases hc : d.clauses = []
  · rw [hc, List.map_nil, List.nil_append]
    by_cases hb : d.bounded = true
    · obtain ⟨e, es, he⟩ := List.exists_cons_of_ne_nil (bounded_iff.mp hb)
      rw [he] at hand ⊢
      rw [FilterEntry.filterSql_of_ne_nil (FilterEntry.unlinked_ne_nil (List.cons_ne_nil e es)),
        FilterEntry.entriesSql_unlinked_of_and fun f hf => hand f (List.mem_cons_of_mem _ hf)]
      simp only [hb, if_true, String.empty_append, ← String.append_assoc]
      rfl
    · rw [boundEntries_eq_nil hb, if_neg hb]
      rfl
  · have hentries : d.clauses.map Clause.entry ≠ [] := by simpa using hc
    rw [FilterEntry.unlinked_append hentries, FilterEntry.filterSql_of_ne_nil
      (List.append_ne_nil_of_left_ne_nil (FilterEntry.unlinked_ne_nil hentries) _),
      FilterEntry.entriesSql_append, if_neg hc, if_neg hc]
    by_cases hb : d.bounded = true
    · obtain ⟨e, es, he⟩ := List.exists_cons_of_ne_nil (bounded_iff.mp hb)
      rw [he] at hand ⊢
      rw [FilterEntry.entriesSql_of_and hand, if_pos hb, String.append_assoc]
    · rw [boundEntries_eq_nil hb, if_neg hb]
      simp [FilterEntry.entriesSql]

end Description
end PanelSource
