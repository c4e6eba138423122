import PanelSource.Proofs.Result.Grouping
import PanelSource.Proofs.Result.Layout

/-! # Tables without groups

Where nothing is grouped by and no metric is named, every column but the time is a series of its
own, with a point for each row. -/
namespace PanelSource

/-- Rows with one key make one group. -/
theorem ofKeys_replicate (n : Nat) (key : GroupKey) :
    Groups.ofKeys (List.replicate (n + 1) key) = [(key, List.range (n + 1))] := by
  have hg := Groups.grouped_ofKeys (List.replicate (n + 1) key)
  have hkeys : (Groups.ofKeys (List.replicate (n + 1) key)).map Prod.fst = [key] := by
    rw [hg.keys_eq, List.replicate_succ, List.eraseDups_cons]
    simp
  obtain ⟨group, hgroup, rfl⟩ := List.map_eq_singleton_iff.mp hkeys
  have hrows := hg.rows_eq group (by rw [hgroup]; exact List.mem_singleton_self _)
  have hall : rowsWith (List.replicate (n + 1) group.1) group.1 = List.range (n + 1) := by
    rw [rowsWith, List.length_replicate, List.filter_eq_self]
    intro r hr
    simp [List.mem_range.mp hr]
  rw [hgroup, ← hall, ← hrows]

/-- The labels of all columns but the first of a name, numbered from `k` on. -/
theorem map_fst_filter_zipIdx {names : List String} {name : String} {i : Nat} (k : Nat)
    (hi : names[i]? = some name) (hfirst : ∀ j < i, names[j]? ≠ some name) :
    ((names.zipIdx k).filter fun p => p.2 != k + i).map Prod.fst = names.erase name := by
  induction names generalizing i k with
  | nil => cases hi
  | cons other rest ih =>
    rw [List.zipIdx_cons]
    cases i with
    | zero =>
      obtain rfl : other = name := Option.some.inj hi
      have hrest : (rest.zipIdx (k + 1)).filter (fun p => p.2 != k + 0) = rest.zipIdx (k + 1) := by
        rw [List.filter_eq_self]
        intro p hp
        have hle := List.le_snd_of_mem_zipIdx hp
        simp only [Nat.add_zero, bne_iff_ne]
        omega
      rw [List.filter_cons_of_neg (by simp), hrest, List.zipIdx_map_fst, List.erase_cons_head]
    | succ i =>
      have hother : other ≠ name := fun h => hfirst 0 (Nat.succ_pos i) (congrArg some h)
      have hk : k + (i + 1) = k + 1 + i := by omega
      have hrest := ih (k + 1) hi fun j hj => hfirst (j + 1) (Nat.succ_lt_succ hj)
      rw [List.filter_cons_of_pos (by simp), List.map_cons, hk, hrest,
        List.erase_cons_tail (by simpa using hother)]

namespace Layout

theorem map_label_remaining {t : Table} {name : String} {i : Nat} (h : t.FirstPosition name i) :
    (remaining t i []).map MetricColumn.label = t.cols.erase name := by
  rw [← map_fst_filter_zipIdx 0 h.1 h.2, remaining, List.map_map]
  simp [Function.comp_def]

theorem resolve_ungrouped {d : Description} {t : Table} (hmode : d.mode = .select)
    (hgroups : d.groupBy = []) (hnone : d.metrics = []) :
    resolve d t =
      (column t d.effectiveTimeColumn).map fun time => ⟨time, remaining t time [], []⟩ := by
  have hmetrics (time : Nat) : metricColumns d t time [] = .ok (remaining t time []) := by
    rw [metricColumns, hmode]
    exact if_pos hnone
  rw [resolve, timeName, hmode, hgroups]
  dsimp only
  cases column t d.effectiveTimeColumn with
  | error e => rfl
  | ok time =>
    change (do let metrics ← metricColumns d t time []; pure (⟨time, metrics, []⟩ : Layout)) = _
    rw [hmetrics]
    rfl

/-- Without grouping columns all rows make one group. -/
theorem fanOut_ungrouped {l : Layout} {stamped : List (List Json × Int)} (hgroups : l.groups = [])
    (hne : stamped ≠ []) :
    l.fanOut stamped = l.metrics.map fun m =>
      ⟨m.label, stamped.map fun p => ⟨Table.cell p.1 m.position, p.2⟩⟩ := by
  obtain ⟨n, hn⟩ := Nat.exists_eq_succ_of_ne_zero (mt List.length_eq_zero_iff.mp hne)
  have hgrouped : l.grouped stamped = [([], List.range stamped.length)] := by
    have hkeys : stamped.map (fun p => l.key p.1) = List.replicate (n + 1) [] := by
      rw [← Nat.succ_eq_add_one, ← hn, ← List.map_const']
      exact List.map_congr_left fun p _ => by rw [key, hgroups]; rfl
    rw [grouped, hkeys, ofKeys_replicate, hn]
  rw [fanOut, hgrouped, List.flatMap_singleton]
  apply List.map_congr_left
  intro m _
  rw [series, target, if_pos hgroups]
  simp only [Option.map_eq_bind, filterMap_range_bind, List.filterMap_eq_map]

end Layout
end PanelSource
