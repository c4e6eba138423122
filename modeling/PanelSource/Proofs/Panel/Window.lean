import Mathlib.Tactic.ByContra
import PanelSource.Panel.Service
import PanelSource.Proofs.Query.Compiled

/-! # The window of a dashboard as the bounds of a statement

Both ends are rounded down to milliseconds. No millisecond lies between the start and its rounding,
but the rounded stop can lie in the window, and a statement leaves it out. -/
namespace PanelSource

namespace Instant

/-- Nanoseconds since 1970. A leap second goes on behind the second before it. -/
def nanoseconds (i : Instant) : Int := i.seconds * 1000000000 + i.nanos

theorem nanoseconds_eq (i : Instant) :
    i.nanoseconds = i.millis * 1000000 + (i.nanos % 1000000 : Nat) := by
  unfold nanoseconds millis
  omega

theorem nanoseconds_lt_iff {i : Instant} {ms : Int} :
    i.nanoseconds < ms * 1000000 ↔ i.millis < ms := by
  have hrest := Nat.mod_lt i.nanos (show 0 < 1000000 by decide)
  rw [nanoseconds_eq]
  omega

theorem lt_nanoseconds_iff {i : Instant} {ms : Int} :
    ms * 1000000 < i.nanoseconds ↔ ms < i.millis ∨ ms = i.millis ∧ i.nanos % 1000000 ≠ 0 := by
  have hrest := Nat.mod_lt i.nanos (show 0 < 1000000 by decide)
  rw [nanoseconds_eq]
  omega

end Instant

namespace TimeRange

/-- The millisecond lies between the ends, which do not belong to the range. -/
def Contains (r : TimeRange) (ms : Int) : Prop :=
  r.start.nanoseconds < ms * 1000000 ∧ ms * 1000000 < r.stop.nanoseconds

theorem between_millis_iff {r : TimeRange} {ms : Int} :
    r.start.millis < ms ∧ ms < r.stop.millis ↔ r.Contains ms ∧ ms ≠ r.stop.millis := by
  rw [Contains, Instant.nanoseconds_lt_iff, Instant.lt_nanoseconds_iff]
  omega

theorem contains_stop_iff {r : TimeRange} :
    r.Contains r.stop.millis ↔ r.start.millis < r.stop.millis ∧ r.stop.nanos % 1000000 ≠ 0 := by
  rw [Contains, Instant.nanoseconds_lt_iff, Instant.lt_nanoseconds_iff]
  omega

end TimeRange

namespace Description

/-- A description without bounds takes those of the range. -/
theorem prepare_of_unbounded {d : Description} (defaults : Defaults) (r : TimeRange)
    (hb : d.bounded = false) : d.prepare defaults (some r) =
      { d.prepare defaults none with
        timeFrom := some r.start.millis, timeTo := some r.stop.millis } := by
  have hfilled : (d.prepare defaults none).bounded = false := hb
  change within (some r) (d.prepare defaults none) = _
  rw [within, if_neg (by rw [hfilled]; exact Bool.false_ne_true)]

def windowSql (column : String) (least greatest : Int) : String :=
  column ++ " > " ++ Text.intText least ++ " AND " ++ column ++ " < " ++ Text.intText greatest

/-- What stands in front of the bounds in a filter. -/
def boundsOpening (d : Description) : String :=
  if d.clauses = [] then " WHERE " else " WHERE" ++ Clause.listSql d.clauses ++ " AND "

theorem filterSql_of_window {d : Description} {least greatest : Int}
    (hfrom : d.timeFrom = some least) (hto : d.timeTo = some greatest)
    (hformat : d.effectiveTimeFormat = .epochMs) :
    d.filterSql = d.boundsOpening ++ windowSql d.effectiveTimeColumn least greatest := by
  have hbounded : d.bounded = true := by rw [bounded, hfrom]; rfl
  have hbounds : " AND ".intercalate d.bounds =
      windowSql d.effectiveTimeColumn least greatest := by
    simp only [bounds, hfrom, hto, Option.map_some, Option.toList_some, List.cons_append,
      List.nil_append, String.intercalate_cons_cons, String.intercalate_singleton, lowerBound,
      upperBound, instantSql, hformat, TimeFormat.instantSql, windowSql, String.append_assoc]
  rw [filterSql, if_pos hbounded, hbounds, boundsOpening]
  split
  · rw [String.empty_append]
  · simp only [String.append_assoc]

/-- The statement for a window in milliseconds admits every millisecond of the window but the
rounded stop, which lies in the window exactly when rounding has moved it and not past the start. -/
theorem window_admits_iff {d : Description} {defaults : Defaults} {r : TimeRange} {sql : String}
    (hb : d.bounded = false) (hmode : d.mode ≠ .sql)
    (hformat : (d.prepare defaults (some r)).effectiveTimeFormat = .epochMs)
    (hc : (d.prepare defaults (some r)).compile = .ok sql) :
    ∃ before behind least greatest,
      sql = before ++
          windowSql (d.prepare defaults (some r)).effectiveTimeColumn least greatest ++ behind ∧
        least = r.start.millis ∧ greatest = r.stop.millis ∧
        (∀ ms, least < ms ∧ ms < greatest ↔ r.Contains ms ∧ ms ≠ greatest) ∧
        ((∀ ms, least < ms ∧ ms < greatest ↔ r.Contains ms) ↔
          (least < greatest → r.stop.nanos % 1000000 = 0)) := by
  have hprepared := prepare_of_unbounded defaults r hb
  have hfrom : (d.prepare defaults (some r)).timeFrom = some r.start.millis := by rw [hprepared]
  have hto : (d.prepare defaults (some r)).timeTo = some r.stop.millis := by rw [hprepared]
  have hm : (d.prepare defaults (some r)).mode ≠ .sql := by rw [hprepared]; exact hmode
  have hsql := eq_of_compile hm hc
  rw [filterSql_of_window hfrom hto hformat] at hsql
  rw [← String.append_assoc] at hsql
  refine ⟨_, _, _, _, hsql, rfl, rfl, fun ms => r.between_millis_iff, ?_⟩
  constructor
  · intro hall hlt
    by_contra hfraction
    have hinside := r.contains_stop_iff.mpr ⟨hlt, hfraction⟩
    exact absurd ((hall _).mpr hinside).2 (Int.lt_irrefl _)
  · intro hwhole ms
    rw [r.between_millis_iff, and_iff_left_iff_imp]
    rintro hinside rfl
    obtain ⟨hlt, hfraction⟩ := r.contains_stop_iff.mp hinside
    exact hfraction (hwhole hlt)

def averages : Description := { table := "t", metrics := [⟨.avg, "v"⟩] }

/-- Both ends lie half a millisecond behind a millisecond, the start of them before 1970. -/
def halfMillis : TimeRange := ⟨⟨-1, 998500000⟩, ⟨0, 10500000⟩⟩

theorem window_admits_iff_halfMillis :
    ∃ sql, averages.bounded = false ∧ averages.mode ≠ .sql ∧
      (averages.prepare {} (some halfMillis)).effectiveTimeFormat = .epochMs ∧
      (averages.prepare {} (some halfMillis)).compile = .ok sql ∧
      ∃ before behind, sql = before ++ windowSql "time" (-2) 10 ++ behind ∧
        ∀ ms : Int, -2 < ms ∧ ms < 10 ↔ halfMillis.Contains ms ∧ ms ≠ 10 := by
  have hformat : (averages.prepare {} (some halfMillis)).effectiveTimeFormat = .epochMs := rfl
  obtain ⟨before, behind, _, _, hsql, rfl, rfl, hadmits, -⟩ :=
    window_admits_iff rfl (by decide) hformat rfl
  exact ⟨_, rfl, by decide, hformat, rfl, before, behind, hsql, hadmits⟩

/-- The tenth millisecond lies in a window that ends behind it. -/
def tenMillis : TimeRange := ⟨⟨0, 0⟩, ⟨0, 10500000⟩⟩

theorem tenMillis_excluded :
    Instant.ofText? "1970-01-01T00:00:00Z" = some tenMillis.start ∧
      Instant.ofText? "1970-01-01T00:00:00.0105Z" = some tenMillis.stop ∧
      (prepare {} (some tenMillis)
          { mode := .select, table := "t", selectColumns := ["a"] }).compile =
        .ok "SELECT a FROM t WHERE time > 0 AND time < 10" ∧
      tenMillis.Contains 10 ∧ ¬(0 < (10 : Int) ∧ (10 : Int) < 10) := by
  refine ⟨by decide, by decide, rfl, ?_, by decide⟩
  exact tenMillis.contains_stop_iff.mpr ⟨by decide, by decide⟩

end Description
end PanelSource
