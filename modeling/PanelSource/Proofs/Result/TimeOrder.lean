import PanelSource.Proofs.Result.FanOut
import PanelSource.Proofs.Store.Instants
import PanelSource.Store.Basic

/-! # Times in order

What is not later in the store is not later in JSON, in whatever units it is stored, so rows in the
order of their times give series in the order of their times. -/
namespace PanelSource

def Series.Ascends (s : Series) : Prop := s.datapoints.Pairwise fun p p' => p.millis ≤ p'.millis

theorem ascending_rowsWith (keys : List GroupKey) (key : GroupKey) :
    (rowsWith keys key).Pairwise (· < ·) := List.pairwise_lt_range.filter _

namespace Layout
variable {l : Layout} {rows : List (List Json)} {stamps : List ℤ}

/-- Rows keep their order in a series. -/
theorem ascends_of_mem_fanOut (hstamps : stamps.Pairwise (· ≤ ·)) {s : Series}
    (hs : s ∈ l.fanOut (rows.zip stamps)) : s.Ascends := by
  obtain ⟨⟨key, members⟩, hgroup, hs⟩ := List.mem_flatMap.mp hs
  obtain ⟨m, -, rfl⟩ := List.mem_map.mp hs
  have hmembers := (Groups.grouped_ofKeys _).rows_eq _ hgroup
  simp only at hmembers
  rw [Series.Ascends, series, hmembers, List.pairwise_filterMap]
  refine (ascending_rowsWith _ key).imp fun {r r'} hlt p hp p' hp' => ?_
  obtain ⟨⟨row, ms⟩, hms, rfl⟩ := Option.map_eq_some_iff.mp hp
  obtain ⟨⟨row', ms'⟩, hms', rfl⟩ := Option.map_eq_some_iff.mp hp'
  obtain ⟨-, hr⟩ := List.getElem?_zip_eq_some.mp hms
  obtain ⟨-, hr'⟩ := List.getElem?_zip_eq_some.mp hms'
  obtain ⟨hlength, hstamp⟩ := List.getElem?_eq_some_iff.mp hr
  obtain ⟨hlength', hstamp'⟩ := List.getElem?_eq_some_iff.mp hr'
  have hle := List.pairwise_iff_getElem.mp hstamps r r' hlength hlength' hlt
  rwa [hstamp, hstamp'] at hle

end Layout

/-- The cell of a row at a position is a date or a timestamp whose milliseconds have 64 bits. -/
def TimeAt (position : ℕ) (row : List Cell) (q : ℚ) : Prop :=
  ∃ c, row[position]? = some c ∧ c.HoldsInstant q ∧ Text.fitsInt64 (wholeMillis q) = true

/-- The rows have times of any units at a position, and they are in the order of these times. -/
def Rowset.TimesAscend (r : Rowset) (position : ℕ) : Prop :=
  ∃ instants : List ℚ, List.Forall₂ (TimeAt position) r.rows instants ∧ instants.Pairwise (· ≤ ·)

theorem TimeAt.millis? {position : ℕ} {row : List Cell} {q : ℚ} (h : TimeAt position row q) :
    (Table.cell (row.map Cell.toJson) position).millis? = some (wholeMillis q) := by
  obtain ⟨c, hc, hinstant, hfits⟩ := h
  rw [Table.cell, List.getElem?_map, hc, Option.map_some, Option.getD_some,
    hinstant.converts.toJson_eq]
  exact if_pos hfits

theorem Rowset.TimesAscend.timestamps {r : Rowset} {l : Layout} (h : r.TimesAscend l.time) :
    ∃ stamps, l.timestamps 0 r.toTable.rows = .ok stamps ∧ stamps.Pairwise (· ≤ ·) := by
  obtain ⟨instants, hall, hascend⟩ := h
  refine ⟨instants.map wholeMillis, ?_, ?_⟩
  · rw [Layout.timestamps_eq_ok_iff, Rowset.toTable, List.forall₂_map_left_iff,
      List.forall₂_map_right_iff]
    exact hall.imp fun _ _ => TimeAt.millis?
  · exact List.pairwise_map.mpr (hascend.imp wholeMillis_mono)

/-- A table is made of the cells as they are. -/
theorem Rowset.eq_toTable {r : Rowset} {t : Table} (h : r.toTable? = some t) : t = r.toTable :=
  (Option.some.inj (Option.ite_none_left_eq_some.mp h).2).symm

/-- Nothing but the layout can be at fault, and all series are in the order of their times. -/
theorem Rowset.TimesAscend.transform {d : Description} {r : Rowset} {position : ℕ}
    (h : r.TimesAscend position)
    (hposition : r.toTable.FirstPosition (Layout.timeName d) position) :
    (∀ l, Layout.resolve d r.toTable = .ok l → ∃ out, transform d r.toTable = .ok out) ∧
      ∀ out, transform d r.toTable = .ok out → ∀ s ∈ out, s.Ascends := by
  have hstamps {l : Layout} (hl : Layout.resolve d r.toTable = .ok l) :
      ∃ stamps, l.timestamps 0 r.toTable.rows = .ok stamps ∧ stamps.Pairwise (· ≤ ·) := by
    obtain rfl := firstPosition_unique hposition (Layout.resolves_of_resolve hl).time
    exact h.timestamps
  by_cases hrows : r.toTable.rows = []
  · have hempty : PanelSource.transform d r.toTable = .ok [] := if_pos hrows
    rw [hempty]
    refine ⟨fun _ _ => ⟨[], rfl⟩, ?_⟩
    rintro _ ⟨⟩ s hs
    exact absurd hs List.not_mem_nil
  · constructor
    · intro l hl
      obtain ⟨stamps, hread, -⟩ := hstamps hl
      exact ⟨_, (transform_eq_ok_iff hrows).mpr ⟨l, stamps, hl, hread, rfl⟩⟩
    · intro out hout s hs
      obtain ⟨l, stamps, hl, hread, rfl⟩ := (transform_eq_ok_iff hrows).mp hout
      obtain ⟨stamps', hread', hascend⟩ := hstamps hl
      cases hread.symm.trans hread'
      exact Layout.ascends_of_mem_fanOut hascend hs

/-- All times of one instant are one number of milliseconds, whatever they are stored in, and of two
instants the later one is never the smaller number. So a result whose rows are in the order of their
times, at the position where a description has the time, is never refused for a time, and each of
its series is in the order of its times. -/
theorem times_keepOrder :
    (∀ c c' : Cell, ∀ q, c.HoldsInstant q → c'.HoldsInstant q → c.toJson? = c'.toJson? ∧
      (c ≠ c' → c.toJson? = some (Json.int (wholeMillis q)))) ∧
    (∀ c c' : Cell, ∀ q q', c.HoldsInstant q → c'.HoldsInstant q' →
      Text.fitsInt64 (wholeMillis q) = true → Text.fitsInt64 (wholeMillis q') = true → q ≤ q' →
      c.toJson? = some (Json.int (wholeMillis q)) ∧
        c'.toJson? = some (Json.int (wholeMillis q')) ∧ wholeMillis q ≤ wholeMillis q') ∧
    ∀ (d : Description) (r : Rowset) (t : Table) (position : ℕ), r.toTable? = some t →
      t.FirstPosition (Layout.timeName d) position → r.TimesAscend position →
      (∀ l, Layout.resolve d t = .ok l → ∃ out, transform d t = .ok out) ∧
      ∀ out, transform d t = .ok out → ∀ s ∈ out, s.Ascends := by
  refine ⟨fun c c' q h h' => ?_, fun c c' q q' h h' hfits hfits' hle => ?_, ?_⟩
  · refine ⟨h.toJson?_eq.trans h'.toJson?_eq.symm, fun hne => ?_⟩
    rw [h.toJson?_eq]
    by_contra hnot
    exact hne (h.eq_of_not_fits h' fun hfits => hnot (if_pos hfits))
  · exact ⟨h.toJson?_eq.trans (if_pos hfits), h'.toJson?_eq.trans (if_pos hfits'),
      wholeMillis_mono hle⟩
  · intro d r t position ht hposition hascend
    obtain rfl := Rowset.eq_toTable ht
    exact hascend.transform hposition

/-- A day, a microsecond and a half second, in turns for two hosts. -/
def mixedUnits : Rowset :=
  ⟨["time", "host", "v"],
    [[.date (-1), .text [97], .integer .int32 1],
      [.timestamp .microsecond (-1500), .text [98], .integer .int32 2],
      [.timestamp .nanosecond 500000000, .text [97], .integer .int32 3]]⟩

theorem times_keepOrder_mixedUnits :
    (Cell.date (-1)).toJson? = (Cell.timestamp .second (-86400)).toJson? ∧
      mixedUnits.toTable? = some mixedUnits.toTable ∧ mixedUnits.TimesAscend 0 ∧
      ∃ out, transform { mode := .select, groupBy := ["host"] } mixedUnits.toTable = .ok out ∧
        ∀ s ∈ out, s.Ascends := by
  have hday : (Cell.date (-1)).HoldsInstant (((-1 : ℤ) : ℚ) * 86400) := .date (by decide)
  have hsecond : (Cell.timestamp .second (-86400)).HoldsInstant
      (((-86400 : ℤ) : ℚ) / TimeUnit.second.perSecond) := .timestamp .second (by decide)
  have hmicro : (Cell.timestamp .microsecond (-1500)).HoldsInstant
      (((-1500 : ℤ) : ℚ) / TimeUnit.microsecond.perSecond) := .timestamp .microsecond (by decide)
  have hnano : (Cell.timestamp .nanosecond 500000000).HoldsInstant
      (((500000000 : ℤ) : ℚ) / TimeUnit.nanosecond.perSecond) := .timestamp .nanosecond (by decide)
  have hsame : ((-86400 : ℤ) : ℚ) / TimeUnit.second.perSecond = ((-1 : ℤ) : ℚ) * 86400 := by
    norm_num [TimeUnit.perSecond]
  have hascend : mixedUnits.TimesAscend 0 := by
    refine ⟨_, .cons ⟨_, rfl, hday, ?_⟩ (.cons ⟨_, rfl, hmicro, ?_⟩
      (.cons ⟨_, rfl, hnano, ?_⟩ .nil)), ?_⟩
    · exact hday.converts.fits_iff.mpr (Cell.convertible_date _)
    · exact hmicro.converts.fits_iff.mpr (Cell.convertible_timestamp (by decide) _)
    · exact hnano.converts.fits_iff.mpr (Cell.convertible_timestamp (by decide) _)
    · norm_num [TimeUnit.perSecond]
  have hday' := (times_keepOrder.1 _ _ _ hday (hsame ▸ hsecond)).1
  have htable : mixedUnits.toTable? = some mixedUnits.toTable := if_neg (by decide)
  obtain ⟨htransform, hseries⟩ := times_keepOrder.2.2
    { mode := .select, groupBy := ["host"] } mixedUnits mixedUnits.toTable 0 htable
    (Table.position?_eq_some_iff.mp rfl) hascend
  obtain ⟨out, hout⟩ := htransform _ rfl
  exact ⟨hday', htable, hascend, out, hout, hseries out hout⟩

end PanelSource
