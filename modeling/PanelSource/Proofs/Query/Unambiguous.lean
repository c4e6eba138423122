import PanelSource.Proofs.Query.AggregationText
import PanelSource.Proofs.Query.Compiled
import PanelSource.Proofs.Query.SourceText

/-! # Plain descriptions compile unambiguously

The statement of a plain description shows the table, the filter and what belongs to its mode, and
nothing else. -/
namespace PanelSource
open Cutting PlainText

namespace Description

def columnText (c : String) : String := "," ++ c

theorem toList_columnText (c : String) (rest : List Char) :
    (columnText c).toList ++ rest = ',' :: (c.toList ++ rest) := by
  simp [columnText]

theorem pieces_columnText :
    Pieces columnText id (fun c => isName c = true) (Stops nameChar) Spaced where
  cut hx hy hrest hrest' h := by
    rw [toList_columnText, toList_columnText] at h
    exact name_cut hx hy hrest hrest' (List.cons.inj h).2
  follows _ := by
    rw [toList_columnText]
    exact stops_cons.mpr rfl
  follows_of_ends h := h.stops rfl
  not_ends _ _ h := by
    rw [toList_columnText] at h
    simpa using stops_cons.mp h

theorem toList_columns (c : String) (cs : List String) (rest : List Char) :
    (",".intercalate (c :: cs)).toList ++ rest =
      c.toList ++ Pieces.joined columnText cs rest := by
  rw [intercalate_cons, String.toList_append, List.append_assoc]
  rfl

theorem columns_cut {cs cs' : List String} {rest rest' : List Char} (hne : cs ≠ [])
    (hne' : cs' ≠ []) (hcs : ∀ c ∈ cs, isName c = true) (hcs' : ∀ c ∈ cs', isName c = true)
    (hrest : Spaced rest) (hrest' : Spaced rest')
    (h : (",".intercalate cs).toList ++ rest = (",".intercalate cs').toList ++ rest') :
    cs = cs' ∧ rest = rest' := by
  obtain ⟨c, cs, rfl⟩ := List.exists_cons_of_ne_nil hne
  obtain ⟨c', cs', rfl⟩ := List.exists_cons_of_ne_nil hne'
  rw [List.forall_mem_cons] at hcs hcs'
  rw [toList_columns, toList_columns] at h
  obtain ⟨rfl, htail⟩ := name_cut hcs.1 hcs'.1 (pieces_columnText.follows_joined hcs.2 hrest)
    (pieces_columnText.follows_joined hcs'.2 hrest') h
  obtain ⟨hkeys, hr⟩ := pieces_columnText.joined_cut hcs.2 hcs'.2 hrest hrest' htail
  rw [List.map_id, List.map_id] at hkeys
  exact ⟨by rw [hkeys], hr⟩

/-- The column that orders and its direction. An empty column counts as none. -/
def ordering (d : Description) : Option (String × Option Order) :=
  (d.orderBy.filter (· ≠ "")).map fun column => (column, d.order)

def directionSql : Option Order → String
  | none => ""
  | some order => " " ++ order.sql

def orderingSql : Option (String × Option Order) → String
  | none => ""
  | some (column, order) => " ORDER BY " ++ column ++ directionSql order

theorem orderSql_eq (d : Description) : d.orderSql = orderingSql d.ordering := by
  unfold orderSql ordering
  cases d.orderBy.filter (· ≠ "") with
  | none => rfl
  | some column => cases d.order <;> rfl

theorem directionSql_injective {o o' : Option Order} (h : directionSql o = directionSql o') :
    o = o' := by
  revert h
  rcases o with _ | _ | _ <;> rcases o' with _ | _ | _ <;> decide

theorem toList_orderingSql (column : String) (order : Option Order) :
    (orderingSql (some (column, order))).toList =
      ' ' :: ("ORDER".toList ++ ' ' :: ("BY".toList ++ ' ' ::
        (column.toList ++ (directionSql order).toList))) := by
  rw [orderingSql, String.toList_append, String.toList_append, List.append_assoc]
  rfl

theorem spaced_directionSql (order : Option Order) : Spaced (directionSql order).toList := by
  rcases order with _ | _ | _
  · exact spaced_nil
  · exact spaced_cons _
  · exact spaced_cons _

/-- The columns that order are identifiers. -/
def OrdersByName (o : Option (String × Option Order)) : Prop :=
  ∀ column order, o = some (column, order) → isName column = true ∧ column ≠ ""

theorem Plain.ordering {d : Description} (h : d.Plain) : OrdersByName d.ordering := by
  intro column order ho
  obtain ⟨c, hc, he⟩ := Option.map_eq_some_iff.mp ho
  obtain ⟨hmem, hne⟩ := Option.mem_filter_iff.mp hc
  cases he
  exact ⟨h.orderBy _ hmem, by simpa using hne⟩

theorem closing_orderingSql {o : Option (String × Option Order)} (h : OrdersByName o) :
    Closing (orderingSql o).toList := by
  cases o with
  | none => exact Closing.nothing
  | some o =>
    obtain ⟨column, order⟩ := o
    obtain ⟨hname, hne⟩ := h column order rfl
    have hspaced := spaced_directionSql order
    rw [toList_orderingSql]
    refine Closing.of_name (by simp) hname (hspaced.stops rfl) (fun h => absurd h hne) ?_ ?_
    · intro _ hparen
      simpa using hspaced '(' hparen
    · intro more hmore
      rcases order with _ | _ | _
      · exact absurd hmore.symm (List.cons_ne_nil _ _)
      · rw [← (List.cons.inj hmore).2]
        rfl
      · rw [← (List.cons.inj hmore).2]
        rfl

theorem orderingSql_injective {o o' : Option (String × Option Order)} (ho : OrdersByName o)
    (ho' : OrdersByName o') (h : (orderingSql o).toList = (orderingSql o').toList) : o = o' := by
  rcases o with _ | ⟨column, order⟩ <;> rcases o' with _ | ⟨column', order'⟩
  · rfl
  · rw [toList_orderingSql] at h
    exact absurd h.symm (List.cons_ne_nil _ _)
  · rw [toList_orderingSql] at h
    exact absurd h (List.cons_ne_nil _ _)
  · rw [toList_orderingSql, toList_orderingSql] at h
    have hbody := List.append_cancel_left (List.cons.inj (List.append_cancel_left
      (List.cons.inj h).2)).2
    obtain ⟨rfl, hdirection⟩ := run_cut (all_nameChar_of_isName (ho column order rfl).1)
      (all_nameChar_of_isName (ho' column' order' rfl).1) ((spaced_directionSql order).stops rfl)
      ((spaced_directionSql order').stops rfl) (List.cons.inj hbody).2
    rw [directionSql_injective (String.toList_inj.mp hdirection)]

/-- What a selection shows. -/
structure SameSelection (d d' : Description) : Prop extends SameSource d d' where
  selectColumns : d.selectColumns = d'.selectColumns
  ordering : d.ordering = d'.ordering

theorem toList_selectText (d : Description) :
    d.selectText.toList = "SELECT ".toList ++ ((",".intercalate d.selectColumns).toList ++
      (" FROM ".toList ++ (d.sourceSql.toList ++ (orderingSql d.ordering).toList))) := by
  simp only [selectText, sourceSql, orderSql_eq, String.toList_append, List.append_assoc]

theorem selectText_eq_iff {d d' : Description} (hd : d.Plain) (hd' : d'.Plain)
    (hne : d.selectColumns ≠ []) (hne' : d'.selectColumns ≠ []) :
    d.selectText = d'.selectText ↔ SameSelection d d' := by
  rw [← String.toList_inj, toList_selectText, toList_selectText]
  constructor
  · intro h
    obtain ⟨hcolumns, h⟩ := columns_cut hne hne' hd.selectColumns hd'.selectColumns
      (spaced_append rfl _) (spaced_append rfl _) (List.append_cancel_left h)
    obtain ⟨hsource, h⟩ := sourceSql_cut hd hd' (closing_orderingSql hd.ordering)
      (closing_orderingSql hd'.ordering) (List.append_cancel_left h)
    exact ⟨hsource, hcolumns, orderingSql_injective hd.ordering hd'.ordering h⟩
  · rintro ⟨hsource, hcolumns, hordering⟩
    rw [hsource.sourceSql, hcolumns, hordering]

/-- Two plain descriptions of one mode are compiled to the same text exactly when they show the
same. -/
theorem compile_eq_iff {d d' : Description} {sql sql' : String} (hd : d.Plain) (hd' : d'.Plain)
    (hmode : d.mode = d'.mode) (hc : d.compile = .ok sql) (hc' : d'.compile = .ok sql') :
    (d.mode = .select → (sql = sql' ↔ SameSelection d d')) ∧
      (d.mode = .aggregate → (sql = sql' ↔ SameAggregation d d')) := by
  constructor
  · intro hselect
    obtain ⟨-, hne, rfl⟩ := (compile_select_iff hselect).mp hc
    obtain ⟨-, hne', rfl⟩ := (compile_select_iff (hmode ▸ hselect)).mp hc'
    exact selectText_eq_iff hd hd' hne hne'
  · intro haggregate
    obtain ⟨-, -, -, rfl⟩ := (compile_aggregate_iff haggregate).mp hc
    obtain ⟨-, -, -, rfl⟩ := (compile_aggregate_iff (hmode ▸ haggregate)).mp hc'
    exact aggregateText_eq_iff hd hd'

/-- A clause that compares the time with a number. -/
def timeClause : Description :=
  { mode := .select, schema := some "", table := "t", selectColumns := ["ORDER", "BY"],
    clauses := [⟨"OR", "time", ">", .number (.int 5)⟩], orderBy := some "FROM" }

/-- The same comparison as a bound. -/
def timeBound : Description :=
  { mode := .select, table := "t", selectColumns := ["ORDER", "BY"], timeFrom := some 5,
    orderBy := some "FROM" }

theorem timeClause_plain : timeClause.Plain :=
  ⟨by decide, by decide, by decide, by decide, by decide, by decide, by decide, by decide,
    by decide⟩

theorem timeBound_plain : timeBound.Plain :=
  ⟨by decide, by decide, by decide, by decide, by decide, by decide, by decide, by decide,
    by decide⟩

theorem compile_eq_iff_timeBound :
    ∃ sql, timeClause.Plain ∧ timeBound.Plain ∧ timeClause.mode = timeBound.mode ∧
      timeClause.compile = .ok sql ∧ timeBound.compile = .ok sql ∧
      SameSelection timeClause timeBound :=
  ⟨_, timeClause_plain, timeBound_plain, rfl, rfl, rfl,
    ((compile_eq_iff timeClause_plain timeBound_plain rfl rfl rfl).1 rfl).mp rfl⟩

end Description
end PanelSource
