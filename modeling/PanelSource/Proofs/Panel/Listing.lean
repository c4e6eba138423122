import PanelSource.Proofs.Panel.Refresh
import PanelSource.Proofs.Query.Compiled
import PanelSource.Proofs.Query.SourceText
import PanelSource.Proofs.Result.Ungrouped
import PanelSource.Proofs.Store.Projection

/-! # Columns of a stored table as series

A target that names columns of a table and nothing else is answered by the stored cells themselves:
from the text of its statement to the points of its series no row and no column is lost. -/
namespace PanelSource

/-- A selection of columns of a table, neither filtered nor bounded, ordered, grouped or
aggregated. -/
structure Description.Lists (d : Description) (t : StoredTable) (names : List String) : Prop where
  mode : d.mode = .select
  table : d.table = t.name
  columns : d.selectColumns = names
  metrics : d.metrics = []
  groups : d.groupBy = []
  clauses : d.clauses = []
  bounds : d.bounded = false
  order : d.orderBy.filter (· ≠ "") = none

namespace StoredTable

/-- A column as a series, given the instants of the rows. -/
def columnSeries (t : StoredTable) (stamps : List Int) (name : String) : Series where
  target := name
  datapoints := (t.rows.zip stamps).map fun p => ⟨(t.cell p.1 name).toJson, p.2⟩

/-- How the listing of columns ends. Without rows there are no series; else the time has to be
listed and every row to have an instant; then there is a series for each name that is listed, but
for the first of the time. -/
structure Listed (t : StoredTable) (names : List String) (time : String)
    (r : Except ServiceError (List Series)) : Prop where
  noRows : t.rows = [] → r = .ok []
  noTime : t.rows ≠ [] → time ∉ names → r = .error (.query (.missingColumn time))
  unreadable : ∀ n row, time ∈ names → t.rows[n]? = some row →
    (t.cell row time).toJson.millis? = none →
    (∀ k < n, ∀ q, t.rows[k]? = some q → (t.cell q time).toJson.millis? ≠ none) →
    r = .error (.query (.invalidTimestamp n (t.cell row time).toJson))
  series : ∀ stamps, t.rows ≠ [] → time ∈ names →
    List.Forall₂ (fun row ms => (t.cell row time).toJson.millis? = some ms) t.rows stamps →
    r = .ok ((names.erase time).map (t.columnSeries stamps))

/-- A cell of the named columns is an instant of more milliseconds than 64 bits hold. -/
def Overflows (t : StoredTable) (names : List String) : Prop :=
  ∃ row ∈ t.rows, ∃ name ∈ names, (t.cell row name).overflows = true

instance (t : StoredTable) (names : List String) : Decidable (t.Overflows names) :=
  inferInstanceAs (Decidable (∃ row ∈ t.rows, ∃ name ∈ names, (t.cell row name).overflows = true))

end StoredTable

namespace Description

theorem Lists.prepare {d : Description} {t : StoredTable} {names : List String}
    (h : d.Lists t names) (defaults : Defaults) : (d.prepare defaults none).Lists t names :=
  ⟨h.mode, h.table, h.columns, h.metrics, h.groups, h.clauses, h.bounds, h.order⟩

theorem Lists.compile {d : Description} {t : StoredTable} {names : List String}
    (h : d.Lists t names) (hschema : d.effectiveSchema = none) (htable : Text.blank t.name = false)
    (hne : names ≠ []) : d.compile = .ok (t.listingSql names) := by
  rw [compile_select_iff h.mode, h.table, h.columns]
  refine ⟨htable, hne, ?_⟩
  have hsource : d.qualifiedTable = t.name := by rw [qualifiedTable_eq, hschema, h.table]; rfl
  have hfilter : d.filterSql = "" := by simp [filterSql, h.clauses, h.bounds]
  have horder : d.orderSql = "" := by rw [orderSql, h.order]
  rw [selectText, hsource, hfilter, horder, h.columns, String.append_empty, String.append_empty,
    StoredTable.listingSql]

end Description

namespace StoredTable
variable {t : StoredTable} {names : List String}

theorem cell_listing {row : List Cell} {name : String} {i : Nat} (h : names[i]? = some name) :
    Table.cell ((names.map (t.cell row)).map Cell.toJson) i = (t.cell row name).toJson := by
  simp [Table.cell, h]

theorem rows_listing (names : List String) :
    (t.listing names).toTable.rows =
      t.rows.map fun row => (names.map (t.cell row)).map Cell.toJson := by
  simp [listing, Rowset.toTable]

theorem overflows_listing : (t.listing names).overflows = true ↔ t.Overflows names := by
  simp [listing, Rowset.overflows, Overflows]

theorem toTable?_listing :
    (t.listing names).toTable? =
      if t.Overflows names then none else some (t.listing names).toTable := by
  rw [Rowset.toTable?]
  exact if_congr overflows_listing rfl rfl

/-- The layout of a listing with its time at some position. -/
def listingLayout (t : StoredTable) (names : List String) (time : Nat) : Layout :=
  ⟨time, Layout.remaining (t.listing names).toTable time [], []⟩

/-- A point for each stored row, under the label of the column. -/
theorem fanOut_listing {stamps : List Int} {time : Nat} {name : String} (hrows : t.rows ≠ [])
    (htime : (t.listing names).toTable.FirstPosition name time)
    (hlength : t.rows.length = stamps.length) :
    (t.listingLayout names time).fanOut ((t.listing names).toTable.rows.zip stamps) =
      (names.erase name).map (t.columnSeries stamps) := by
  have hzip : (t.listing names).toTable.rows.zip stamps = (t.rows.zip stamps).map
      (Prod.map (fun row => (names.map (t.cell row)).map Cell.toJson) id) := by
    rw [rows_listing, List.zip_map_left]
  have hne : (t.listing names).toTable.rows.zip stamps ≠ [] := by
    rw [hzip, Ne, List.map_eq_nil_iff, List.zip_eq_nil_iff]
    rintro (h | h)
    · exact hrows h
    · exact hrows (List.length_eq_zero_iff.mp (by rw [hlength, h, List.length_nil]))
  have hlabels : (Layout.remaining (t.listing names).toTable time []).map MetricColumn.label =
      names.erase name := Layout.map_label_remaining htime
  rw [Layout.fanOut_ungrouped rfl hne, listingLayout, ← hlabels, List.map_map]
  apply List.map_congr_left
  intro m hm
  have hlabel : names[m.position]? = some m.label :=
    ((Layout.remaining_spec (t.listing names).toTable time []).mem_iff m |>.mp hm).1
  rw [hzip, List.map_map, Function.comp_apply, columnSeries]
  congr 1
  apply List.map_congr_left
  intro p _
  exact congrArg (Datapoint.mk · p.2) (cell_listing hlabel)

theorem timestamps_listing_ok {time : Nat} {name : String} {stamps : List Int}
    (htime : names[time]? = some name)
    (h : List.Forall₂ (fun row ms => (t.cell row name).toJson.millis? = some ms) t.rows stamps) :
    (t.listingLayout names time).timestamps 0 (t.listing names).toTable.rows = .ok stamps := by
  rw [Layout.timestamps_eq_ok_iff, rows_listing, List.forall₂_map_left_iff]
  refine h.imp fun row ms hms => ?_
  rwa [listingLayout, cell_listing htime]

theorem timestamps_listing_error {time : Nat} {name : String} {n : Nat} {row : List Cell}
    (htime : names[time]? = some name) (hrow : t.rows[n]? = some row)
    (hnone : (t.cell row name).toJson.millis? = none)
    (hfirst : ∀ k < n, ∀ q, t.rows[k]? = some q → (t.cell q name).toJson.millis? ≠ none) :
    (t.listingLayout names time).timestamps 0 (t.listing names).toTable.rows =
      .error (.invalidTimestamp n (t.cell row name).toJson) := by
  rw [Layout.timestamps_eq_error_iff, rows_listing]
  refine ⟨n, (names.map (t.cell row)).map Cell.toJson, ?_, ?_, ?_, ?_⟩
  · rw [List.getElem?_map, hrow, Option.map_some]
  · rwa [listingLayout, cell_listing htime]
  · rw [listingLayout, cell_listing htime, Nat.zero_add]
  · intro k hk cells hcells
    rw [List.getElem?_map, Option.map_eq_some_iff] at hcells
    obtain ⟨q, hq, rfl⟩ := hcells
    rw [listingLayout, cell_listing htime]
    exact hfirst k hk q hq

/-- The reshaped listing ends as it should. -/
theorem listed_of_transform {d : Description} (h : d.Lists t names) :
    t.Listed names d.effectiveTimeColumn
      ((transform d (t.listing names).toTable).mapError .query) := by
  have hsome (hrows : t.rows ≠ []) : (t.listing names).toTable.rows ≠ [] := by
    rw [rows_listing, Ne, List.map_eq_nil_iff]
    exact hrows
  have hresolve := Layout.resolve_ungrouped (t := (t.listing names).toTable) h.mode h.groups
    h.metrics
  have hposition (htime : d.effectiveTimeColumn ∈ names) :
      ∃ time, (t.listing names).toTable.FirstPosition d.effectiveTimeColumn time ∧
        Layout.resolve d (t.listing names).toTable = .ok (t.listingLayout names time) := by
    obtain ⟨time, hcolumn⟩ := (Layout.exists_column_iff (t := (t.listing names).toTable)).mpr htime
    exact ⟨time, Layout.column_eq_ok_iff.mp hcolumn, by rw [hresolve, hcolumn]; rfl⟩
  constructor
  case noRows =>
    intro hrows
    rw [transform, if_pos (by rw [rows_listing, hrows, List.map_nil])]
    rfl
  case noTime =>
    intro hrows htime
    have hcolumn := Layout.column_eq_error_iff.mpr
      (⟨htime, rfl⟩ : d.effectiveTimeColumn ∉ (t.listing names).toTable.cols ∧ _)
    rw [(transform_eq_error_iff (hsome hrows)).mpr (.inl (by rw [hresolve, hcolumn]; rfl))]
    rfl
  case unreadable =>
    intro n row htime hrow hnone hfirst
    have hrows : t.rows ≠ [] := List.ne_nil_of_mem (List.mem_of_getElem? hrow)
    obtain ⟨time, hposition, hl⟩ := hposition htime
    have hstamps := timestamps_listing_error hposition.1 hrow hnone hfirst
    rw [(transform_eq_error_iff (hsome hrows)).mpr (.inr ⟨_, hl, hstamps⟩)]
    rfl
  case series =>
    intro stamps hrows htime hall
    obtain ⟨time, hposition, hl⟩ := hposition htime
    have hstamps := timestamps_listing_ok hposition.1 hall
    rw [(transform_eq_ok_iff (hsome hrows)).mpr
      ⟨_, _, hl, hstamps, fanOut_listing hrows hposition hall.length_eq⟩]
    rfl

end StoredTable

namespace Datasource
variable {σ : Type}

/-- A single target that compiles to a statement fails as the store does, and with a table it ends
as the table is reshaped. -/
theorem query_single {ds : Datasource σ} {d : Description} {x : σ} {statement : String}
    {answer : Except StoreError Table} (hshown : d.hide = false)
    (hcompile : (ds.prepare none d).compile = .ok statement)
    (hexecute : (ds.store statement x).1.answer = answer) :
    (ds.query { targets := [d] }).Yields x
      ((answer.mapError .store).bind fun table =>
        (transform (ds.prepare none d) table).mapError .query)
      [statement] (ds.store statement x).2 := by
  apply query_yields_of_targets
  have hfailed {e : ServiceError}
      (h : ds.Fails none d x [statement] e (ds.store statement x).2) :
      (ds.queryTargets none [d]).Yields x (.error e) [statement] (ds.store statement x).2 :=
    h.yields_targets hshown []
  cases answer with
  | error e => exact hfailed (.execute hcompile hexecute)
  | ok table =>
    cases htransform : transform (ds.prepare none d) table with
    | error e =>
      have hresult : ((Except.ok table : Except ServiceError Table).bind fun table =>
          (transform (ds.prepare none d) table).mapError ServiceError.query) =
            .error (.query e) := by
        rw [Except.bind, htransform, Except.mapError]
      exact hresult ▸ hfailed (.transform hcompile hexecute htransform)
    | ok series =>
      have hresult : ((Except.ok table : Except ServiceError Table).bind fun table =>
          (transform (ds.prepare none d) table).mapError ServiceError.query) = .ok series := by
        rw [Except.bind, htransform, Except.mapError]
      have hanswered : ds.Answered none d x statement series (ds.store statement x).2 :=
        ⟨hcompile, ⟨table, hexecute, htransform⟩, rfl⟩
      have hvisible : visible [d] = [d] := List.filter_eq_self.mpr (by simp [hshown])
      have hall : ds.AllAnswered none (visible [d]) x [statement] (series ++ [])
          (ds.store statement x).2 := by
        rw [hvisible]
        exact .cons hanswered (.nil _)
      rw [List.append_nil] at hall
      exact hresult ▸ hall.yields

/-- Two samples of one host, the second without a load. -/
def rack : StoredTable :=
  ⟨"rack", ["time", "host", "load"],
    [[.timestamp .second 1, .text [97], .integer .int32 5],
      [.timestamp .second 2, .text [97], .null]]⟩

/-- The time is listed twice, and the load on both sides of it. -/
def loads : Description :=
  { mode := .select, table := "rack", selectColumns := ["load", "time", "time", "load"] }

end Datasource
end PanelSource
