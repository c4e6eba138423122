import PanelSource.Proofs.Panel.Validity
import PanelSource.Proofs.Panel.Window
import PanelSource.Proofs.Query.AggregationText
import PanelSource.Proofs.Text.Digits

/-! # Buckets and bounds of one time column

An interval makes a time column a temporal one unless its format is declared. The bucket asks for
the interval and the bounds for the format, and so they agree on what the column holds. -/
namespace PanelSource

/-- The column against an instant as the format holds it. -/
def TimeFormat.Compares (f : TimeFormat) (column bound : String) : Prop :=
  ∃ operator ∈ [" > ", " < "], ∃ ms : Int, bound = column ++ operator ++ f.instantSql ms

/-- No number is written like a call. -/
theorem TimeFormat.instantSql_inj {f g : TimeFormat} {ms ms' : Int}
    (h : f.instantSql ms = g.instantSql ms') : f = g := by
  have hcall (m n : Int) : TimeFormat.epochMs.instantSql m ≠ TimeFormat.timestamp.instantSql n := by
    intro h
    have hchars := congrArg String.toList h
    simp only [instantSql, String.toList_append, List.append_assoc] at hchars
    exact PlainText.intText_append_ne (c := 'e') rfl _ [] ((List.append_nil _).trans hchars)
  cases f <;> cases g
  · rfl
  · exact absurd h (hcall ms ms')
  · exact absurd h.symm (hcall ms' ms)
  · rfl

theorem TimeFormat.Compares.unique {f g : TimeFormat} {column bound : String}
    (hf : f.Compares column bound) (hg : g.Compares column bound) : f = g := by
  obtain ⟨operator, hop, ms, rfl⟩ := hf
  obtain ⟨operator', hop', ms', heq⟩ := hg
  have hlength : ∀ s ∈ [" > ", " < "], s.toList.length = 3 := by decide
  rw [String.append_assoc, String.append_assoc, String.append_right_inj, ← String.toList_inj,
    String.toList_append, String.toList_append] at heq
  obtain ⟨-, hinstant⟩ :=
    List.append_inj heq ((hlength _ hop).trans (hlength _ hop').symm)
  exact instantSql_inj (String.toList_inj.mp hinstant)

namespace Description
variable {d : Description}

theorem compares_of_mem_bounds {b : String} (h : b ∈ d.bounds) :
    d.effectiveTimeFormat.Compares d.effectiveTimeColumn b := by
  simp only [bounds, List.mem_append, Option.mem_toList, Option.map_eq_some_iff] at h
  rcases h with ⟨ms, -, rfl⟩ | ⟨ms, -, rfl⟩
  · exact ⟨_, List.mem_cons_self, ms, rfl⟩
  · exact ⟨_, List.mem_cons_of_mem _ List.mem_cons_self, ms, rfl⟩

theorem bounds_ne_nil (hb : d.bounded = true) : d.bounds ≠ [] := by
  rw [bounds_eq]
  exact mt List.map_eq_nil_iff.mp (bounded_iff.mp hb)

theorem compares_bounds_iff (hb : d.bounded = true) {f : TimeFormat} :
    (∀ b ∈ d.bounds, f.Compares d.effectiveTimeColumn b) ↔ d.effectiveTimeFormat = f := by
  constructor
  · intro hall
    obtain ⟨b, bs, hbounds⟩ := List.exists_cons_of_ne_nil (bounds_ne_nil hb)
    have hmem : b ∈ d.bounds := hbounds ▸ List.mem_cons_self
    exact (compares_of_mem_bounds hmem).unique (hall b hmem)
  · rintro rfl b hmem
    exact compares_of_mem_bounds hmem

theorem bucketSql_some_ne (interval column : String) :
    bucketSql (some interval) column ≠ column := by
  intro h
  have hlength := congrArg String.length h
  have hcall : "date_trunc('".length = 12 := by decide
  simp only [bucketSql_some, String.length_append, hcall] at hlength
  omega

theorem bucketSql_inj {interval interval' : Option String} {column : String}
    (h : bucketSql interval column = bucketSql interval' column) : interval = interval' := by
  cases interval with
  | none =>
    cases interval' with
    | none => rfl
    | some i' => exact absurd h.symm (bucketSql_some_ne i' column)
  | some i =>
    cases interval' with
    | none => exact absurd h (bucketSql_some_ne i column)
    | some i' =>
      rw [bucketSql_some, bucketSql_some] at h
      simp only [String.append_left_inj, String.append_right_inj] at h
      rw [h]

theorem bucket_eq_iff {interval : Option String} :
    d.bucket = bucketSql interval d.effectiveTimeColumn ↔ d.effectiveInterval = interval := by
  rw [bucket_eq]
  exact ⟨bucketSql_inj, fun h => h ▸ rfl⟩

/-- Unless it is declared, the format is the one that the bucket needs. -/
theorem effectiveTimeFormat_eq_timestamp_iff (h : d.timeFormat = none) :
    d.effectiveTimeFormat = .timestamp ↔ ∃ interval, d.effectiveInterval = some interval := by
  rw [effectiveTimeFormat, h]
  cases d.effectiveInterval <;> simp

theorem effectiveTimeFormat_eq_epochMs_iff (h : d.timeFormat = none) :
    d.effectiveTimeFormat = .epochMs ↔ d.effectiveInterval = none := by
  rw [effectiveTimeFormat, h]
  cases d.effectiveInterval <;> simp

/-- An aggregation with bounds, in the parts where its time column stands. -/
def timedText (d : Description) (bucket : String) (bounds : List String) : String :=
  "SELECT " ++ ", ".intercalate ((bucket ++ " AS time") ::
      (d.metrics.map Metric.selectItem ++ d.groupBy)) ++ " FROM " ++ d.qualifiedTable ++
    d.boundsOpening ++ " AND ".intercalate bounds ++ " GROUP BY " ++
    ", ".intercalate (bucket :: d.groupBy) ++ " ORDER BY time ASC"

theorem filterSql_of_bounded (hb : d.bounded = true) :
    d.filterSql = d.boundsOpening ++ " AND ".intercalate d.bounds := by
  rw [filterSql, if_pos hb, boundsOpening]
  split
  · rw [String.empty_append]
  · simp only [String.append_assoc]

theorem aggregateText_of_bounded (hb : d.bounded = true) :
    d.aggregateText = d.timedText d.bucket d.bounds := by
  rw [aggregateText, timedText, selectItems, filterSql_of_bounded hb]
  simp only [String.append_assoc]

section Prepared
variable {defaults : Defaults} {range : Option TimeRange}

theorem mode_prepare : (d.prepare defaults range).mode = d.mode := by rw [prepare_eq]

theorem timeFormat_prepare :
    (d.prepare defaults range).timeFormat = d.timeFormat.or defaults.timeFormat := by
  rw [prepare_eq]

theorem effectiveTimeColumn_prepare :
    (d.prepare defaults range).effectiveTimeColumn = d.timeColumn.getD defaults.timeColumn := by
  rw [effectiveTimeColumn, prepare_eq]
  cases d.timeColumn <;> rfl

theorem effectiveInterval_prepare {interval : String} :
    (d.prepare defaults range).effectiveInterval = some interval ↔
      interval ≠ "" ∧ (d.groupInterval = some interval ∨
        d.groupInterval = none ∧ defaults.groupInterval = some interval) := by
  rw [effectiveInterval, prepare_eq, Option.filter_eq_some_iff, Option.or_eq_some_iff, and_comm,
    decide_eq_true_iff]

/-- Where no format is declared, a target with bounds buckets its column by an interval if its
bounds are calls, and takes the column as it is if they are numbers. The interval is the target's
own, or else the default one, and an empty one is none. The column is the same everywhere, and the
groups repeat the bucket that is selected. -/
theorem buckets_agreeWithBounds (defaults : Defaults) (range : Option TimeRange)
    (d : Description) {text : String} (hmode : d.mode = .aggregate) (hc : d.compile = .ok text)
    (htarget : d.timeFormat = none) (hdefaults : defaults.timeFormat = none)
    (hb : (d.prepare defaults range).bounded = true) :
    let prepared := d.prepare defaults range
    let column := d.timeColumn.getD defaults.timeColumn
    prepared.compile = .ok (prepared.timedText prepared.bucket prepared.bounds) ∧
      prepared.bounds ≠ [] ∧
      ((∃ interval, prepared.bucket = bucketSql (some interval) column) ↔
        ∀ b ∈ prepared.bounds, TimeFormat.timestamp.Compares column b) ∧
      (prepared.bucket = column ↔ ∀ b ∈ prepared.bounds, TimeFormat.epochMs.Compares column b) ∧
      ∀ interval, prepared.bucket = bucketSql (some interval) column ↔
        interval ≠ "" ∧ (d.groupInterval = some interval ∨
          d.groupInterval = none ∧ defaults.groupInterval = some interval) := by
  intro prepared column
  have hcolumn : prepared.effectiveTimeColumn = column := effectiveTimeColumn_prepare
  have hopen : prepared.timeFormat = none := by
    rw [timeFormat_prepare, htarget, hdefaults]
    rfl
  have hbucket (interval : Option String) :
      prepared.bucket = bucketSql interval column ↔ prepared.effectiveInterval = interval :=
    hcolumn ▸ bucket_eq_iff
  have hbounds (f : TimeFormat) :
      (∀ b ∈ prepared.bounds, f.Compares column b) ↔ prepared.effectiveTimeFormat = f :=
    hcolumn ▸ compares_bounds_iff hb
  refine ⟨?_, bounds_ne_nil hb, ?_, ?_,
    fun interval => (hbucket _).trans effectiveInterval_prepare⟩
  · obtain ⟨sql, hsql⟩ : ∃ sql, prepared.compile = .ok sql := by
      rw [exists_compile_iff, rules_prepare, ← exists_compile_iff]
      exact ⟨text, hc⟩
    obtain ⟨-, -, -, rfl⟩ := (compile_aggregate_iff (mode_prepare.trans hmode)).mp hsql
    rw [hsql, aggregateText_of_bounded hb]
  · rw [hbounds, effectiveTimeFormat_eq_timestamp_iff hopen]
    exact exists_congr fun interval => hbucket (some interval)
  · rw [hbounds, effectiveTimeFormat_eq_epochMs_iff hopen]
    exact hbucket none

end Prepared

def hourly : Defaults := { timeColumn := "ts", groupInterval := some "hour" }

def firstMinute : TimeRange := ⟨⟨0, 0⟩, ⟨60, 0⟩⟩

/-- A target that switches the default interval off. -/
def unbucketed : Description := { averages with groupInterval := some "" }

theorem buckets_agreeWithBounds_hourly :
    (averages.prepare hourly (some firstMinute)).compile =
        .ok ("SELECT date_trunc('hour', ts) AS time, avg(v) AS \"avg(v)\" FROM t " ++
          "WHERE ts > epoch_ms(0) AND ts < epoch_ms(60000) " ++
          "GROUP BY date_trunc('hour', ts) ORDER BY time ASC") ∧
      (∀ b ∈ (averages.prepare hourly (some firstMinute)).bounds,
        TimeFormat.timestamp.Compares "ts" b) ∧
      (unbucketed.prepare hourly (some firstMinute)).compile =
        .ok ("SELECT ts AS time, avg(v) AS \"avg(v)\" FROM t WHERE ts > 0 AND ts < 60000 " ++
          "GROUP BY ts ORDER BY time ASC") ∧
      ∀ b ∈ (unbucketed.prepare hourly (some firstMinute)).bounds,
        TimeFormat.epochMs.Compares "ts" b := by
  obtain ⟨hcut, -, hcalls, -, hinterval⟩ :=
    buckets_agreeWithBounds hourly (some firstMinute) averages rfl rfl rfl rfl rfl
  obtain ⟨hbare, -, -, hnumbers, -⟩ :=
    buckets_agreeWithBounds hourly (some firstMinute) unbucketed rfl rfl rfl rfl rfl
  refine ⟨hcut.trans rfl, hcalls.mp ⟨"hour", ?_⟩, hbare.trans rfl, hnumbers.mp rfl⟩
  exact (hinterval "hour").mpr ⟨by decide, .inr ⟨rfl, rfl⟩⟩

end Description
end PanelSource
