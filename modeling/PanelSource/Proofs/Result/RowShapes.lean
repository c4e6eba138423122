import PanelSource.Proofs.Result.FanOut

/-! # Rows of any length

A row may end before its last column, and it may go on behind it. A table gives what it gives with
all its rows cut to the columns and filled up with nulls, since a layout has no other positions. -/
namespace PanelSource

namespace Table

/-- A row cut to a length and filled up with nulls. -/
def fitRow (n : Nat) (row : List Json) : List Json := (row.take n).rightpad n .null

/-- Each row with just one cell for each column. -/
def fitted (t : Table) : Table := ⟨t.cols, t.rows.map (fitRow t.cols.length)⟩

/-- Rows with the same cells below a position; a missing cell is null. -/
def SameBelow (n : Nat) (row row' : List Json) : Prop := ∀ i < n, cell row i = cell row' i

theorem length_fitRow (n : Nat) (row : List Json) : (fitRow n row).length = n := by
  rw [fitRow, List.length_rightpad, List.length_take]
  omega

theorem cell_fitRow {n i : Nat} (row : List Json) (h : i < n) :
    cell (fitRow n row) i = cell row i := by
  rcases Nat.lt_or_ge i row.length with hi | hi
  · have hfit : (fitRow n row)[i]? = row[i]? := by
      rw [fitRow, List.rightpad, List.getElem?_append_left (by simp; omega),
        List.getElem?_take_of_lt h]
    rw [cell, cell, hfit]
  · have hrow : row[i]? = none := List.getElem?_eq_none hi
    have hfit : (fitRow n row)[i]? = some .null := by
      rw [fitRow, List.rightpad, List.getElem?_append_right (by simp; omega),
        List.getElem?_replicate_of_lt (by simp; omega)]
    rw [cell, cell, hfit, hrow]
    rfl

theorem sameBelow_fitRow (n : Nat) (row : List Json) : SameBelow n row (fitRow n row) :=
  fun _ h => (cell_fitRow row h).symm

theorem FirstPosition.lt {t : Table} {name : String} {i : Nat} (h : t.FirstPosition name i) :
    i < t.cols.length :=
  (List.getElem?_eq_some_iff.mp h.1).1

end Table

section Lists
variable {α β γ : Type} {xs : List α}

theorem forall_mem_of_forall₂ {R : α → β → Prop} {P : β → Prop} {ys : List β}
    (h : List.Forall₂ R xs ys) (hP : ∀ x y, R x y → P y) : ∀ y ∈ ys, P y := by
  induction h with
  | nil => simp
  | cons hxy _ ih => exact List.forall_mem_cons.mpr ⟨hP _ _ hxy, ih⟩

theorem map_zip_congr {R : α → α → Prop} {f : α × β → γ} {ys : List α}
    (h : List.Forall₂ R xs ys) (hf : ∀ x y b, R x y → f (x, b) = f (y, b)) (bs : List β) :
    (xs.zip bs).map f = (ys.zip bs).map f := by
  induction h generalizing bs with
  | nil => rfl
  | cons hxy _ ih =>
    cases bs with
    | nil => rfl
    | cons b bs => simp only [List.zip_cons_cons, List.map_cons, hf _ _ b hxy, ih]

end Lists

namespace Layout
variable {d : Description} {t u : Table} {l : Layout}

theorem columns_congr (hcols : u.cols = t.cols) (names : List String) :
    columns u names = columns t names := by
  induction names with
  | nil => rfl
  | cons name rest ih => rw [columns, columns, ih, column, column, Table.position?, hcols]; rfl

theorem metricColumns_congr (hcols : u.cols = t.cols) (time : Nat) (groups : List Nat) :
    metricColumns d u time groups = metricColumns d t time groups := by
  simp only [metricColumns, labelled, columns_congr hcols, remaining, hcols]

theorem resolve_congr (d : Description) (hcols : u.cols = t.cols) : resolve d u = resolve d t := by
  have htime : column u (timeName d) = column t (timeName d) := by
    rw [column, column, Table.position?, hcols]
    rfl
  simp only [resolve, htime, columns_congr hcols, metricColumns_congr hcols]

/-- All positions lie below a bound. -/
structure Within (l : Layout) (n : Nat) : Prop where
  time : l.time < n
  groups : ∀ i ∈ l.groups, i < n
  metrics : ∀ m ∈ l.metrics, m.position < n

theorem MetricsAt.lt {time : Nat} {groups : List Nat} {ms : List MetricColumn}
    (h : MetricsAt d t time groups ms) : ∀ m ∈ ms, m.position < t.cols.length := by
  cases h with
  | expressions _ _ h => exact forall_mem_of_forall₂ h fun _ _ hm => hm.2.lt
  | columns _ _ h => exact forall_mem_of_forall₂ h fun _ _ hm => hm.2.lt
  | remaining _ _ h =>
    intro m hm
    exact (List.getElem?_eq_some_iff.mp ((h.mem_iff m).mp hm).1).1

theorem Resolves.within (h : l.Resolves d t) : l.Within t.cols.length :=
  ⟨h.time.lt, forall_mem_of_forall₂ h.groups fun _ _ hi => hi.lt, h.metrics.lt⟩

/-- A layout reads the same from two rows. -/
structure ReadsAlike (l : Layout) (row row' : List Json) : Prop where
  time : Table.cell row l.time = Table.cell row' l.time
  key : l.key row = l.key row'
  metrics : ∀ m ∈ l.metrics, Table.cell row m.position = Table.cell row' m.position

theorem Within.readsAlike {n : Nat} (h : l.Within n) {row row' : List Json}
    (hsame : Table.SameBelow n row row') : l.ReadsAlike row row' := by
  refine ⟨hsame _ h.time, ?_, fun m hm => hsame _ (h.metrics m hm)⟩
  exact List.map_congr_left fun i hi => congrArg keyPart (hsame i (h.groups i hi))

variable {rows rows' : List (List Json)}

theorem timestamps_congr (h : List.Forall₂ l.ReadsAlike rows rows') (n : Nat) :
    l.timestamps n rows = l.timestamps n rows' := by
  induction h generalizing n with
  | nil => rfl
  | cons hrow _ ih => rw [timestamps, timestamps, hrow.time, ih]

theorem series_congr (h : List.Forall₂ l.ReadsAlike rows rows') (stamps : List Int)
    (key : GroupKey) (members : List Nat) {m : MetricColumn} (hm : m ∈ l.metrics) :
    l.series (rows.zip stamps) key members m = l.series (rows'.zip stamps) key members m := by
  have hpoints : (rows.zip stamps).map
        (fun p => (⟨Table.cell p.1 m.position, p.2⟩ : Datapoint)) =
      (rows'.zip stamps).map fun p => ⟨Table.cell p.1 m.position, p.2⟩ :=
    map_zip_congr h (fun _ _ _ hrow => by rw [hrow.metrics m hm]) stamps
  simp only [series, ← List.getElem?_map, hpoints]

theorem fanOut_congr (h : List.Forall₂ l.ReadsAlike rows rows') (stamps : List Int) :
    l.fanOut (rows.zip stamps) = l.fanOut (rows'.zip stamps) := by
  have hkeys : (rows.zip stamps).map (fun p => l.key p.1) =
      (rows'.zip stamps).map fun p => l.key p.1 :=
    map_zip_congr h (fun _ _ _ hrow => hrow.key) stamps
  simp only [fanOut, grouped, hkeys]
  exact List.flatMap_congr fun group _ =>
    List.map_congr_left fun m hm => series_congr h stamps group.1 group.2 hm

end Layout

/-- Rows that are the same below the columns give the same, whatever stands behind. -/
theorem transform_congr (d : Description) {t u : Table} (hcols : u.cols = t.cols)
    (hrows : List.Forall₂ (Table.SameBelow t.cols.length) t.rows u.rows) :
    transform d u = transform d t := by
  have hnone : u.rows = [] ↔ t.rows = [] := by
    rw [← List.length_eq_zero_iff, ← List.length_eq_zero_iff, hrows.length_eq]
  simp only [transform, hnone, Layout.resolve_congr d hcols]
  split
  · rfl
  · cases hl : Layout.resolve d t with
    | error e => rfl
    | ok l =>
      have hwithin := (Layout.resolves_of_resolve hl).within
      have halike : List.Forall₂ l.ReadsAlike t.rows u.rows :=
        hrows.imp fun _ _ hsame => hwithin.readsAlike hsame
      change (l.timestamps 0 u.rows >>= fun stamps => pure (l.fanOut (u.rows.zip stamps))) =
        (l.timestamps 0 t.rows >>= fun stamps => pure (l.fanOut (t.rows.zip stamps)))
      simp only [← Layout.timestamps_congr halike, ← Layout.fanOut_congr halike]

theorem forall₂_fitted (t : Table) :
    List.Forall₂ (Table.SameBelow t.cols.length) t.rows t.fitted.rows := by
  rw [Table.fitted, List.forall₂_map_right_iff, List.forall₂_same]
  exact fun row _ => Table.sameBelow_fitRow _ row

/-- Only rows that are there, and their instants, are looked up by numbers. -/
theorem lt_of_mem_grouped {l : Layout} {t : Table} {stamps : List Int}
    (h : l.timestamps 0 t.rows = .ok stamps) {group : GroupKey × List Nat}
    (hgroup : group ∈ l.grouped (t.rows.zip stamps)) {r : Nat} (hr : r ∈ group.2) :
    r < t.rows.length ∧ r < stamps.length := by
  have hlen := (Layout.timestamps_eq_ok_iff.mp h).length_eq
  rw [(Layout.grouped_zip_stamps h).rows_eq group hgroup, mem_rowsWith] at hr
  have hlt := (List.getElem?_eq_some_iff.mp hr).1
  rw [Layout.rowKeys, List.length_map] at hlt
  exact ⟨hlt, hlen ▸ hlt⟩

/-- The length of a row does not matter: fitted to the columns the table gives the same series or
the same error. No position is behind the columns, so no key, instant or value comes from there, and
no row is asked for that is not there. -/
theorem transform_fitted (d : Description) (t : Table) :
    transform d t.fitted = transform d t ∧
      (∀ row ∈ t.fitted.rows, row.length = t.cols.length) ∧
      (∀ u : Table, u.cols = t.cols →
        List.Forall₂ (Table.SameBelow t.cols.length) t.rows u.rows →
          transform d u = transform d t) ∧
      ∀ l, Layout.resolve d t = .ok l → l.Within t.cols.length ∧
        (∀ row row', Table.SameBelow t.cols.length row row' → l.ReadsAlike row row') ∧
        ∀ stamps, l.timestamps 0 t.rows = .ok stamps →
          ∀ group ∈ l.grouped (t.rows.zip stamps), ∀ r ∈ group.2,
            r < t.rows.length ∧ r < stamps.length := by
  refine ⟨transform_congr d rfl (forall₂_fitted t), ?_, fun u => transform_congr d, ?_⟩
  · intro row hrow
    obtain ⟨_, -, rfl⟩ := List.mem_map.mp hrow
    exact Table.length_fitRow _ _
  · intro l hl
    have hwithin := (Layout.resolves_of_resolve hl).within
    exact ⟨hwithin, fun _ _ => hwithin.readsAlike,
      fun _ hs _ hgroup _ => lt_of_mem_grouped hs hgroup⟩

def valuesByHost : Description := { mode := .select, groupBy := ["host"] }

/-- A row that goes on behind the columns, and one that ends before the last of them. -/
def unevenRows : Table :=
  ⟨["time", "host", "v"], [[.int 1, .text "a", .int 10, .text "b"], [.text "2", .text "a"]]⟩

/-- The same, with other cells behind the columns. -/
def otherTails : Table :=
  ⟨["time", "host", "v"],
    [[.int 1, .text "a", .int 10], [.text "2", .text "a", .null, .text "b", .int 7]]⟩

theorem sameBelow_secondRow :
    Table.SameBelow 3 [.text "2", .text "a"] [.text "2", .text "a", .null, .text "b", .int 7] := by
  intro i hi
  have hcases : i = 0 ∨ i = 1 ∨ i = 2 := by omega
  rcases hcases with rfl | rfl | rfl <;> rfl

theorem transform_fitted_unevenRows :
    unevenRows.fitted.rows =
        [[.int 1, .text "a", .int 10], [.text "2", .text "a", .null]] ∧
      transform valuesByHost unevenRows.fitted =
        .ok [⟨"a: v", [⟨.int 10, 1⟩, ⟨.null, 2⟩]⟩] ∧
      transform valuesByHost otherTails = transform valuesByHost unevenRows ∧
      ∃ l, Layout.resolve valuesByHost unevenRows = .ok l ∧ l.Within 3 ∧
        l.ReadsAlike [.text "2", .text "a"] [.text "2", .text "a", .null, .text "b", .int 7] ∧
        l.timestamps 0 unevenRows.rows = .ok [1, 2] ∧
        l.grouped (unevenRows.rows.zip [1, 2]) = [(["a"], [0, 1])] ∧
        1 < unevenRows.rows.length := by
  obtain ⟨hfitted, -, hsame, hreads⟩ := transform_fitted valuesByHost unevenRows
  obtain ⟨hwithin, halike, hrows⟩ := hreads _ rfl
  have htails : List.Forall₂ (Table.SameBelow 3) unevenRows.rows otherTails.rows :=
    .cons (Table.sameBelow_fitRow 3 _) (.cons sameBelow_secondRow .nil)
  exact ⟨rfl, hfitted.trans rfl, hsame otherTails rfl htails, _, rfl, hwithin,
    halike _ _ sameBelow_secondRow, rfl, rfl,
    (hrows [1, 2] rfl _ (List.mem_singleton_self _) 1 (by decide)).1⟩

/-- A row without cells has no time. -/
example : transform valuesByHost ⟨["time", "host", "v"], [[]]⟩ =
    .error (.invalidTimestamp 0 .null) := rfl

end PanelSource
