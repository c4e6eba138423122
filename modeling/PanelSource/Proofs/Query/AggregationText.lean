import PanelSource.Proofs.Query.Compiled
import PanelSource.Proofs.Query.SourceText

/-! # The text of an aggregation determines what it shows -/
namespace PanelSource
open Cutting PlainText

namespace Description

def bucketSql (interval : Option String) (timeColumn : String) : String :=
  match interval with
  | none => timeColumn
  | some interval => "date_trunc('" ++ interval ++ "', " ++ timeColumn ++ ")"

theorem bucket_eq (d : Description) :
    d.bucket = bucketSql d.effectiveInterval d.effectiveTimeColumn := by
  unfold bucket bucketSql
  cases d.effectiveInterval <;> rfl

theorem bucketSql_some (interval timeColumn : String) :
    bucketSql (some interval) timeColumn =
      "date_trunc('" ++ interval ++ "', " ++ timeColumn ++ ")" := rfl

theorem toList_bucketSql (interval timeColumn : String) (rest : List Char) :
    (bucketSql (some interval) timeColumn).toList ++ rest =
      "date_trunc".toList ++ '(' :: '\'' :: (interval.toList ++ '\'' ::
        (", ".toList ++ (timeColumn.toList ++ ')' :: rest))) := by
  simp [bucketSql_some]

theorem Plain.effectiveInterval {d : Description} (h : d.Plain) :
    ∀ i ∈ d.effectiveInterval, isName i = true :=
  fun i hi => h.groupInterval i (Option.mem_filter_iff.mp hi).1

/-- A column named like the function is not called. -/
theorem bucketSql_ne {interval timeColumn timeColumn' : String} (ht : isName timeColumn' = true)
    (rest : List Char) {rest' : List Char} (hrest' : Spaced rest') :
    (bucketSql (some interval) timeColumn).toList ++ rest ≠ timeColumn'.toList ++ rest' := by
  intro h
  rw [toList_bucketSql] at h
  obtain ⟨-, hr⟩ := run_cut rfl (all_nameChar_of_isName ht) (stops_cons.mpr rfl)
    (hrest'.stops rfl) h
  exact absurd (stops_cons.mp (hr ▸ hrest')) (by decide)

theorem bucketSql_cut {interval interval' : Option String} {timeColumn timeColumn' : String}
    {rest rest' : List Char} (hi : ∀ i ∈ interval, isName i = true)
    (hi' : ∀ i ∈ interval', isName i = true) (ht : isName timeColumn = true)
    (ht' : isName timeColumn' = true) (hrest : Spaced rest) (hrest' : Spaced rest')
    (h : (bucketSql interval timeColumn).toList ++ rest =
      (bucketSql interval' timeColumn').toList ++ rest') :
    interval = interval' ∧ timeColumn = timeColumn' ∧ rest = rest' := by
  have hstops {c : Char} (hc : nameChar c = false) (cs : List Char) : Stops nameChar (c :: cs) :=
    stops_cons.mpr hc
  cases interval with
  | none =>
    cases interval' with
    | none =>
      obtain ⟨htime, hr⟩ := name_cut ht ht' (hrest.stops rfl) (hrest'.stops rfl) h
      exact ⟨rfl, htime, hr⟩
    | some i' => exact absurd h.symm (bucketSql_ne ht rest' hrest)
  | some i =>
    cases interval' with
    | none => exact absurd h (bucketSql_ne ht' rest hrest')
    | some i' =>
      rw [toList_bucketSql, toList_bucketSql] at h
      have hquoted := (List.cons.inj (List.cons.inj (List.append_cancel_left h)).2).2
      obtain ⟨hinterval, htail⟩ :=
        name_cut (hi i rfl) (hi' i' rfl) (hstops rfl _) (hstops rfl _) hquoted
      obtain ⟨htime, hr⟩ := name_cut ht ht'
        (hstops rfl _) (hstops rfl _) (List.append_cancel_left (List.cons.inj htail).2)
      exact ⟨congrArg some hinterval, htime, (List.cons.inj hr).2⟩

def groupText (g : String) : String := ", " ++ g

theorem toList_groupText (g : String) (rest : List Char) :
    (groupText g).toList ++ rest = ',' :: ' ' :: (g.toList ++ rest) := by
  simp [groupText]

/-- A name among the groups goes on with neither a letter nor a call. -/
def groupChar (c : Char) : Bool := nameChar c || c == '('

theorem nameChar_of_groupChar_eq_false {c : Char} (h : groupChar c = false) :
    nameChar c = false := (Bool.or_eq_false_iff.mp h).1

theorem pieces_groupText :
    Pieces groupText id (fun g => isName g = true) (Stops groupChar) Spaced where
  cut hx hy hrest hrest' h := by
    rw [toList_groupText, toList_groupText] at h
    exact name_cut hx hy (hrest.mono fun _ => nameChar_of_groupChar_eq_false)
      (hrest'.mono fun _ => nameChar_of_groupChar_eq_false) (List.cons.inj (List.cons.inj h).2).2
  follows _ := by
    rw [toList_groupText]
    exact stops_cons.mpr rfl
  follows_of_ends h := h.stops rfl
  not_ends _ _ h := by
    rw [toList_groupText] at h
    simpa using stops_cons.mp h

def metricText (m : Metric) : String := ", " ++ m.selectItem

/-- What the select item of a metric shows. -/
def metricKey (m : Metric) : String × String := (m.kind.name, m.column)

theorem toList_metricText (m : Metric) (rest : List Char) :
    (metricText m).toList ++ rest =
      ',' :: ' ' :: (m.kind.name.toList ++ '(' :: (m.column.toList ++ ')' ::
        (" AS ".toList ++ ((Metric.quoteIdentifier m.expression).toList ++ rest)))) := by
  simp [metricText, Metric.selectItem, Metric.expression]

theorem expression_eq_of_metricKey {m m' : Metric} (h : metricKey m = metricKey m') :
    m.expression = m'.expression := by
  obtain ⟨hkind, hcolumn⟩ := Prod.mk.inj h
  rw [Metric.expression, Metric.expression, hkind, hcolumn]

theorem metricText_cut {m m' : Metric} {rest rest' : List Char} (hm : m.plain = true)
    (hm' : m'.plain = true)
    (h : (metricText m).toList ++ rest = (metricText m').toList ++ rest') :
    metricKey m = metricKey m' ∧ rest = rest' := by
  have hcolumn {m : Metric} (hm : m.plain = true) :
      m.column.toList.all (fun c => nameChar c || c == '*') = true := by
    simp only [Metric.plain, Bool.and_eq_true, Bool.or_eq_true, beq_iff_eq] at hm
    rcases hm.2 with hstar | hname
    · rw [hstar]
      rfl
    · exact all_mono (fun c hc => by rw [hc, Bool.true_or]) (all_nameChar_of_isName hname)
  have hkind {m : Metric} (hm : m.plain = true) : m.kind.name.toList.all nameChar = true := by
    simp only [Metric.plain, Bool.and_eq_true] at hm
    exact all_nameChar_of_isName hm.1
  rw [toList_metricText, toList_metricText] at h
  obtain ⟨hk, hr⟩ := run_cut (hkind hm) (hkind hm') (stops_cons.mpr rfl) (stops_cons.mpr rfl)
    (List.cons.inj (List.cons.inj h).2).2
  obtain ⟨hc, hr⟩ := run_cut (hcolumn hm) (hcolumn hm') (stops_cons.mpr rfl) (stops_cons.mpr rfl)
    (List.cons.inj hr).2
  have hkey : metricKey m = metricKey m' := Prod.ext hk hc
  rw [expression_eq_of_metricKey hkey] at hr
  exact ⟨hkey, List.append_cancel_left (List.append_cancel_left (List.cons.inj hr).2)⟩

/-- What stands behind the metrics: the groups, and a space. -/
def GroupsEnd (rest : List Char) : Prop :=
  ∃ groups more, (∀ g ∈ groups, isName g = true) ∧ Spaced more ∧
    rest = Pieces.joined groupText groups more

theorem not_groupsEnd_metricText {m : Metric} {rest : List Char} (hm : m.plain = true) :
    ¬GroupsEnd ((metricText m).toList ++ rest) := by
  rintro ⟨groups, more, hgroups, hmore, h⟩
  rw [toList_metricText] at h
  cases groups with
  | nil =>
    rw [Pieces.joined_nil] at h
    exact absurd (stops_cons.mp (h ▸ hmore)) (by decide)
  | cons g gs =>
    rw [List.forall_mem_cons] at hgroups
    rw [Pieces.joined_cons, toList_groupText] at h
    simp only [Metric.plain, Bool.and_eq_true] at hm
    have hfollows := pieces_groupText.follows_joined hgroups.2 hmore
    obtain ⟨-, hr⟩ := name_cut hm.1 hgroups.1 (stops_cons.mpr rfl)
      (hfollows.mono fun _ => nameChar_of_groupChar_eq_false) (List.cons.inj (List.cons.inj h).2).2
    rw [← hr] at hfollows
    exact absurd (stops_cons.mp hfollows) (by decide)

theorem pieces_metricText :
    Pieces metricText metricKey (fun m => m.plain = true) (fun _ => True) GroupsEnd where
  cut hm hm' _ _ := metricText_cut hm hm'
  follows _ := trivial
  follows_of_ends _ := trivial
  not_ends hm _ := not_groupsEnd_metricText hm

def groupingSql (interval : Option String) (timeColumn : String) (groups : List String) : String :=
  " GROUP BY " ++ ", ".intercalate (bucketSql interval timeColumn :: groups) ++ " ORDER BY time ASC"

theorem toList_groupingSql (interval : Option String) (timeColumn : String)
    (groups : List String) :
    (groupingSql interval timeColumn groups).toList =
      ' ' :: ("GROUP".toList ++ ' ' :: ("BY".toList ++ ' ' ::
        ((bucketSql interval timeColumn).toList ++
          Pieces.joined groupText groups " ORDER BY time ASC".toList))) := by
  simp only [groupingSql, intercalate_cons, String.toList_append, List.append_assoc]
  rfl

theorem closing_groupingSql {interval : Option String} {timeColumn : String}
    (ht : isName timeColumn = true) (groups : List String) :
    Closing (groupingSql interval timeColumn groups).toList := by
  rw [toList_groupingSql]
  cases interval with
  | some interval =>
    rw [toList_bucketSql]
    refine Closing.of_name (by simp) rfl (stops_cons.mpr rfl) (fun h => absurd h (by decide))
      (fun h => absurd h (by decide)) ?_
    intro more hmore
    exact absurd (List.cons.inj hmore).1 (by decide)
  | none =>
    cases groups with
    | nil =>
      refine Closing.of_name (by simp) ht (stops_cons.mpr rfl) (fun _ => rfl) ?_ ?_
      · exact fun _ hparen => absurd (Option.some.inj hparen) (by decide)
      · intro more hmore
        rw [← (List.cons.inj hmore).2]
        rfl
    | cons g gs =>
      rw [Pieces.joined_cons, toList_groupText]
      refine Closing.of_name (by simp) ht (stops_cons.mpr rfl) (fun _ => rfl) ?_ ?_
      · exact fun _ hparen => absurd (Option.some.inj hparen) (by decide)
      · exact fun more hmore => absurd (List.cons.inj hmore).1 (by decide)

/-- What an aggregation shows. -/
structure SameAggregation (d d' : Description) : Prop extends SameSource d d' where
  timeColumn : d.effectiveTimeColumn = d'.effectiveTimeColumn
  interval : d.effectiveInterval = d'.effectiveInterval
  metrics : d.metrics.map metricKey = d'.metrics.map metricKey
  groupBy : d.groupBy = d'.groupBy

theorem toList_aggregateText (d : Description) :
    d.aggregateText.toList = "SELECT ".toList ++
      ((bucketSql d.effectiveInterval d.effectiveTimeColumn).toList ++ (" AS time".toList ++
        Pieces.joined metricText d.metrics (Pieces.joined groupText d.groupBy (" FROM ".toList ++
          (d.sourceSql.toList ++
            (groupingSql d.effectiveInterval d.effectiveTimeColumn d.groupBy).toList))))) := by
  have hmetrics : (d.metrics.map Metric.selectItem).map (", " ++ ·) = d.metrics.map metricText := by
    rw [List.map_map]
    rfl
  have hgroups : d.groupBy.map (", " ++ ·) = d.groupBy.map groupText := rfl
  rw [aggregateText, selectItems, intercalate_cons, List.map_append, hmetrics, hgroups, bucket_eq]
  simp only [Pieces.joined, sourceSql, groupingSql, String.toList_append, String.toList_join,
    List.flatMap_append, List.append_assoc]

theorem joined_metricText_congr {ms ms' : List Metric} (h : ms.map metricKey = ms'.map metricKey)
    (rest : List Char) : Pieces.joined metricText ms rest = Pieces.joined metricText ms' rest := by
  have hkey : metricText = (fun k => metricText ⟨.other k.1, k.2⟩) ∘ metricKey := rfl
  rw [Pieces.joined, Pieces.joined, hkey, ← List.map_map, h, List.map_map]

theorem aggregateText_eq_iff {d d' : Description} (hd : d.Plain) (hd' : d'.Plain) :
    d.aggregateText = d'.aggregateText ↔ SameAggregation d d' := by
  rw [← String.toList_inj, toList_aggregateText, toList_aggregateText]
  constructor
  · intro h
    obtain ⟨hinterval, htime, h⟩ := bucketSql_cut hd.effectiveInterval hd'.effectiveInterval
      hd.effectiveTimeColumn hd'.effectiveTimeColumn (spaced_append rfl _) (spaced_append rfl _)
      (List.append_cancel_left h)
    obtain ⟨hmetrics, h⟩ := pieces_metricText.joined_cut hd.metrics hd'.metrics
      ⟨_, _, hd.groupBy, spaced_append rfl _, rfl⟩ ⟨_, _, hd'.groupBy, spaced_append rfl _, rfl⟩
      (List.append_cancel_left h)
    obtain ⟨hgroups, h⟩ := pieces_groupText.joined_cut hd.groupBy hd'.groupBy
      (spaced_append rfl _) (spaced_append rfl _) h
    rw [List.map_id, List.map_id] at hgroups
    obtain ⟨hsource, -⟩ := sourceSql_cut hd hd' (closing_groupingSql hd.effectiveTimeColumn _)
      (closing_groupingSql hd'.effectiveTimeColumn _) (List.append_cancel_left h)
    exact ⟨hsource, htime, hinterval, hmetrics, hgroups⟩
  · rintro ⟨hsource, htime, hinterval, hmetrics, hgroups⟩
    rw [hsource.sourceSql, htime, hinterval, joined_metricText_congr hmetrics, hgroups]

end Description
end PanelSource
