import PanelSource.Proofs.Number.Truncation
import PanelSource.Proofs.Panel.Refresh
import PanelSource.Proofs.Result.Grouping
import PanelSource.Proofs.Store.Sampling

/-! # Suggested values of a column

A limit cuts the rows that are read, while what is suggested are the different texts in them. A
greater limit reads more rows behind the same ones, so it can only add texts at the end. JSON has no
number for a floating value that is infinite or none: it becomes null, and null is not suggested. -/
namespace PanelSource

namespace Cell

/-- A cell that is null as JSON: one without a value, or a floating one without a finite number. -/
inductive Lost : Cell → Prop
  | null : Lost .null
  | float {x : Extended} (h : x.finite? = none) : Lost (.float x)
  | double {x : Extended} (h : x.finite? = none) : Lost (.double x)

/-- Huge integers and the mantissas of decimals have 128 bits. -/
def Narrow : Cell → Prop
  | hugeInt n => n.natAbs ≤ 2 ^ 127
  | decimal mantissa _ => mantissa.natAbs ≤ 2 ^ 127
  | _ => True

/-- No cell is lost but for these. -/
theorem isNull_toJson_iff {c : Cell} (h : c.Narrow) : c.toJson.isNull = true ↔ c.Lost := by
  have hfloating (x : Extended) : (ofDouble? x.finite?).isNull = true ↔ x.finite? = none := by
    cases x.finite? <;> simp [ofDouble?, Json.double, Json.isNull]
  constructor
  · intro hnull
    cases c with
    | null => exact .null
    | float x => exact .float ((hfloating x).mp hnull)
    | double x => exact .double ((hfloating x).mp hnull)
    | hugeInt n =>
      obtain ⟨x, hx, -⟩ := Double.ofInt?_eq_some h
      rw [toJson, hx] at hnull
      split at hnull <;> cases hnull
    | decimal mantissa scale =>
      obtain ⟨x, hx⟩ := Double.ofDecimal?_eq_some h (decide (mantissa < 0)) scale
      rw [toJson, hx] at hnull
      cases hnull
    | _ => cases hnull
  · rintro (_ | hx | hx)
    · rfl
    · exact (hfloating _).mpr hx
    · exact (hfloating _).mpr hx

end Cell

/-- The rows that are read for suggestions: a limit of zero reads all of them, and where there is no
limit the configured one holds. -/
def Defaults.rowsRead {α : Type} (defaults : Defaults) (limit : Option Nat) (rows : List α) :
    List α :=
  match limit.getD defaults.valuesLimit with
  | 0 => rows
  | n + 1 => rows.take (n + 1)

/-- The texts suggested for a column by each limit. Greater limits add texts at the end, and no
limit adds more than zero, which stands for all rows. A text is suggested when a cell of the rows
that are read has it and is not lost; of all rows no other cell is missed. -/
structure StoredTable.Suggests (t : StoredTable) (column : String) (defaults : Defaults)
    (suggested : Option Nat → List String) : Prop where
  grows : ∀ n m, 0 < n → n ≤ m → suggested (some n) <+: suggested (some m)
  uncapped : ∀ n, suggested (some n) <+: suggested (some 0)
  configured : suggested none = suggested (some defaults.valuesLimit)
  nodup : ∀ limit, (suggested limit).Nodup
  mem_iff : ∀ limit s, s ∈ suggested limit ↔ ∃ row ∈ defaults.rowsRead limit t.rows,
    ¬(t.cell row column).Lost ∧ (t.cell row column).toJson.cellText = s
  complete : ∀ row ∈ t.rows, ¬(t.cell row column).Lost →
    (t.cell row column).toJson.cellText ∈ suggested (some 0)

section Prefixes
variable {α : Type}

/-- First occurrences in the front part of a list stay the first ones. -/
theorem eraseDups_prefix [BEq α] [LawfulBEq α] {xs ys : List α} (h : xs <+: ys) :
    xs.eraseDups <+: ys.eraseDups := by
  obtain ⟨zs, rfl⟩ := h
  rw [List.eraseDups_append]
  exact List.prefix_append _ _

namespace Defaults
variable (defaults : Defaults) (rows : List α)

theorem rowsRead_prefix_all (limit : Option Nat) : defaults.rowsRead limit rows <+: rows := by
  unfold rowsRead
  split
  · exact List.prefix_refl rows
  · exact List.take_prefix _ rows

theorem rowsRead_prefix {n m : Nat} (hn : 0 < n) (h : n ≤ m) :
    defaults.rowsRead (some n) rows <+: defaults.rowsRead (some m) rows := by
  obtain ⟨n, rfl⟩ := Nat.exists_eq_add_one.mpr hn
  obtain ⟨m, rfl⟩ := Nat.exists_eq_add_one.mpr (Nat.lt_of_lt_of_le hn h)
  exact List.take_prefix_take_left h

end Defaults
end Prefixes

namespace StoredTable
variable (t : StoredTable) (column : String)

/-- The different texts of a column in some rows, in the order of their first rows. -/
def texts (rows : List (List Cell)) : List String :=
  (((rows.map fun row => (t.cell row column).toJson).filter fun c => !c.isNull).map
    Json.cellText).eraseDups

variable {t column}

theorem texts_prefix {rows rows' : List (List Cell)} (h : rows <+: rows') :
    t.texts column rows <+: t.texts column rows' :=
  eraseDups_prefix (((h.map _).filter _).map _)

theorem mem_texts {rows : List (List Cell)} {s : String}
    (hnarrow : ∀ row ∈ rows, (t.cell row column).Narrow) :
    s ∈ t.texts column rows ↔ ∃ row ∈ rows,
      ¬(t.cell row column).Lost ∧ (t.cell row column).toJson.cellText = s := by
  have hmem : s ∈ t.texts column rows ↔ ∃ row ∈ rows,
      (t.cell row column).toJson.isNull = false ∧ (t.cell row column).toJson.cellText = s := by
    simp [texts, and_assoc]
  rw [hmem]
  refine exists_congr fun row => and_congr_right fun hrow => and_congr_left fun _ => ?_
  rw [← Cell.isNull_toJson_iff (hnarrow row hrow), Bool.not_eq_true]

theorem suggests_texts {t : StoredTable} {column : String}
    (hnarrow : ∀ row ∈ t.rows, (t.cell row column).Narrow) (defaults : Defaults) :
    t.Suggests column defaults fun limit => t.texts column (defaults.rowsRead limit t.rows) where
  grows _ _ hn h := texts_prefix (defaults.rowsRead_prefix t.rows hn h)
  uncapped n := texts_prefix (defaults.rowsRead_prefix_all t.rows (some n))
  configured := rfl
  nodup _ := nodup_eraseDups _
  mem_iff limit _ := mem_texts fun row hrow =>
    hnarrow row ((defaults.rowsRead_prefix_all t.rows limit).subset hrow)
  complete row hrow hlost := (mem_texts hnarrow).mpr ⟨row, hrow, hlost, rfl⟩

end StoredTable

/-- Only the cells of a table matter for its suggestions. -/
theorem Rowset.suggestions_toTable {r : Rowset} {t : StoredTable} {column : String}
    {rows : List (List Cell)} (h : r.rows = rows.map fun row => [t.cell row column]) :
    r.toTable.suggestions = t.texts column rows := by
  have hcells : r.toTable.rows.flatten = rows.map fun row => (t.cell row column).toJson := by
    rw [Rowset.toTable, h, List.map_map, ← List.flatMap_def]
    exact List.map_eq_flatMap.symm
  rw [Table.suggestions, hcells, StoredTable.texts]

theorem Rowset.toTable?_of_fit {r : Rowset} {t : StoredTable} {column : String}
    {rows : List (List Cell)} (h : r.rows = rows.map fun row => [t.cell row column])
    (hfit : ∀ row ∈ rows, (t.cell row column).overflows = false) : r.toTable? = some r.toTable := by
  have hoverflows : r.overflows = false := by simpa [overflows, h] using hfit
  rw [toTable?, hoverflows, if_neg Bool.false_ne_true]

namespace Datasource
variable {σ : Type} {engine : Engine σ} {x : σ} {t : StoredTable} {column : String}

/-- The statement for some limit, and the rows an engine has for it. -/
theorem exists_statement (htable : Text.blank t.name = false) (hcolumn : Text.blank column = false)
    (h : engine.Samples x t column) (defaults : Defaults) (limit : Option Nat) :
    ∃ statement r,
      Statement.values t.name column (some (limit.getD defaults.valuesLimit)) = .ok statement ∧
        (engine statement x).1 = .ok r ∧
        r.rows = (defaults.rowsRead limit t.rows).map fun row => [t.cell row column] := by
  have hvalues (n : Nat) : Statement.values t.name column (some n) =
      .ok (if 0 < n then t.cappedSql column n else t.listingSql [column]) := by
    have htext : "SELECT " ++ column ++ " FROM " ++ t.name = t.listingSql [column] := by
      rw [StoredTable.listingSql, String.intercalate_singleton]
    simp only [Statement.values, Description.requireTable, Description.requireColumn, htable,
      hcolumn, htext]
    cases n with
    | zero => exact congrArg Except.ok (String.append_empty ..)
    | succ n => exact congrArg Except.ok (String.append_assoc ..).symm
  rw [hvalues, Defaults.rowsRead]
  generalize limit.getD defaults.valuesLimit = n
  cases n with
  | zero =>
    obtain ⟨r, hr, hrows⟩ := Outcome.map_eq_ok_iff.mp h.whole
    exact ⟨_, r, rfl, hr, hrows⟩
  | succ n =>
    obtain ⟨r, hr, hrows⟩ := Outcome.map_eq_ok_iff.mp (h.capped (n + 1) n.succ_pos)
    exact ⟨_, r, rfl, hr, hrows.trans (List.map_take ..).symm⟩

/-- Over an engine that samples a column, its suggestions grow at their end with the limit, as long
as no cell that is read overflows. -/
theorem values_grow (htable : Text.blank t.name = false) (hcolumn : Text.blank column = false)
    (hnarrow : ∀ row ∈ t.rows, (t.cell row column).Narrow) (defaults : Defaults) :
    ∃ suggested, t.Suggests column defaults suggested ∧
      ∀ x, engine.Samples x t column → ∀ limit,
        (∀ row ∈ defaults.rowsRead limit t.rows, (t.cell row column).overflows = false) →
        ∃ statement,
          Statement.values t.name column (some (limit.getD defaults.valuesLimit)) = .ok statement ∧
          (values ⟨.ofEngine engine, defaults⟩ t.name column limit).Yields x
            (.ok (suggested limit)) [statement] (engine statement x).2 := by
  refine ⟨_, StoredTable.suggests_texts hnarrow defaults, fun x hsamples limit hfit => ?_⟩
  obtain ⟨statement, r, hvalues, hr, hrows⟩ :=
    exists_statement htable hcolumn hsamples defaults limit
  refine ⟨statement, hvalues, ?_⟩
  have hanswer : (Store.ofEngine engine statement x).1.answer = .ok r.toTable := by
    rw [Store.answer_ofEngine hr, r.toTable?_of_fit hrows hfit]
    rfl
  have hexecute := (Work.yields_execute_ok hanswer).map Table.suggestions
  rw [Except.map, r.suggestions_toTable hrows] at hexecute
  exact (Work.yields_ofQuery_ok hvalues x).bind hexecute

/-- Loads of two hosts, one of them measured twice, one not at all and one without a number. -/
def loadLog : StoredTable :=
  ⟨"loads", ["host", "load"],
    [[.text [97], .null], [.text [97], .integer .int32 5], [.text [98], .integer .int32 7],
      [.text [98], .integer .int32 5], [.text [97], .integer .int32 8], [.text [98], .double .nan]]⟩

theorem values_grow_loads :
    Catalog.Has ⟨[loadLog]⟩ loadLog ∧ Text.blank "loads" = false ∧ Text.blank "load" = false ∧
      (∀ row ∈ loadLog.rows, (loadLog.cell row "load").Narrow) ∧
      ∃ suggested, loadLog.Suggests "load" { valuesLimit := 2 } suggested ∧
        suggested none = ["5"] ∧ suggested (some 4) = ["5", "7"] ∧
        suggested (some 0) = ["5", "7", "8"] := by
  have hname (name : String) (h : name ∈ ["loads", "host", "load"]) : Unquoted name := by
    simp only [List.mem_cons, List.not_mem_nil, or_false] at h
    rcases h with rfl | rfl | rfl <;> exact ⟨by decide, by decide, by decide⟩
  have hhas : Catalog.Has ⟨[loadLog]⟩ loadLog :=
    ⟨rfl, by decide, hname _ (by decide), fun name h => hname name (List.mem_cons_of_mem _ h)⟩
  have hsamples : Catalog.engine.Samples ⟨[loadLog]⟩ loadLog "load" :=
    Catalog.engine_samples hhas (by decide)
  have hloads : Text.blank loadLog.name = false := by decide
  have hload : Text.blank "load" = false := by decide
  have hnarrow : ∀ row ∈ loadLog.rows, (loadLog.cell row "load").Narrow := by
    simp only [loadLog, List.forall_mem_cons]
    exact ⟨trivial, trivial, trivial, trivial, trivial, trivial, nofun⟩
  have hfit : ∀ row ∈ loadLog.rows, (loadLog.cell row "load").overflows = false := by decide
  obtain ⟨suggested, hsuggests, hvalues⟩ := @values_grow _ Catalog.engine loadLog "load" hloads
    hload hnarrow { valuesLimit := 2 }
  have hruns (limit : Option Nat) (texts : List String)
      (h : ∃ sent, (values ⟨.ofCatalog, { valuesLimit := 2 }⟩ "loads" "load" limit).Yields
        ⟨[loadLog]⟩ (.ok texts) sent ⟨[loadLog]⟩) : suggested limit = texts := by
    obtain ⟨statement, -, hyields⟩ := hvalues _ hsamples limit fun row hrow =>
      hfit row ((Defaults.rowsRead_prefix_all _ loadLog.rows limit).subset hrow)
    obtain ⟨sent, hrun⟩ := h
    exact Except.ok.inj (hyields.unique hrun).1
  refine ⟨hhas, hloads, hload, hnarrow, suggested, hsuggests,
    hruns none _ ⟨["SELECT load FROM loads LIMIT 2"], ?_⟩,
    hruns (some 4) _ ⟨["SELECT load FROM loads LIMIT 4"], ?_⟩,
    hruns (some 0) _ ⟨["SELECT load FROM loads"], ?_⟩⟩
  all_goals
    rintro ⟨x, sent, events⟩ rfl
    exact ⟨_, rfl⟩

/-- Loads that are no finite numbers. -/
def brokenLog : StoredTable :=
  ⟨"loads", ["load"], [[.double .nan], [.double (.infinity true)]]⟩

/-- All rows are read and no cell is missing from them, but nothing is suggested. -/
theorem brokenLoads_missed :
    Catalog.Has ⟨[brokenLog]⟩ brokenLog ∧
      (∀ row ∈ brokenLog.rows, brokenLog.cell row "load" ≠ .null) ∧
      (values ⟨.ofCatalog, {}⟩ "loads" "load" (some 0)).Yields ⟨[brokenLog]⟩ (.ok [])
        ["SELECT load FROM loads"] ⟨[brokenLog]⟩ := by
  refine ⟨⟨rfl, by decide, ⟨by decide, by decide, by decide⟩, ?_⟩, by decide, ?_⟩
  · exact List.forall_mem_singleton.mpr ⟨by decide, by decide, by decide⟩
  · rintro ⟨x, sent, events⟩ rfl
    exact ⟨_, rfl⟩

end Datasource
end PanelSource
