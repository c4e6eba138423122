import PanelSource.Instant.Calendar

/-! # Days and dates are one to one -/
namespace PanelSource

namespace Calendar

/-- The month of a day of the year leads back to the day. -/
theorem daysBefore_monthAndDay (lens : List Nat) {n : Nat} (hn : n < daysBefore lens lens.length) :
    ∃ k d len, monthAndDay lens n = (k + 1, d + 1) ∧ lens[k]? = some len ∧ d < len ∧
      daysBefore lens k + d = n := by
  induction lens generalizing n with
  | nil => exact absurd hn (Nat.not_lt_zero n)
  | cons len rest ih =>
    rw [monthAndDay]
    split
    · rename_i hlt
      exact ⟨0, n, len, rfl, rfl, hlt, Nat.zero_add n⟩
    · rename_i hge
      rw [List.length_cons, daysBefore] at hn
      obtain ⟨k, d, len', hfound, hlen, hd, hdays⟩ := ih (n := n - len) (by omega)
      refine ⟨k + 1, d, len', ?_, hlen, hd, ?_⟩
      · rw [hfound]
      · rw [daysBefore]
        omega

theorem yearOfDay_mem {day least limit : Int} (hleast : yearStart least ≤ day)
    (hlimit : day < yearStart limit) : least ≤ yearOfDay day ∧ yearOfDay day < limit := by
  have hyear := yearOfDay_bounds day
  constructor
  · refine Int.not_lt.mp fun hlt => ?_
    have hle := yearStart_le (x := yearOfDay day + 1) (y := least) (by omega)
    omega
  · refine Int.not_le.mp fun hge => ?_
    have hle := yearStart_le (x := limit) (y := yearOfDay day) (by omega)
    omega

theorem monthLength_le {leap : Bool} {k len : Nat} (h : (monthLengths leap)[k]? = some len) :
    k < 12 ∧ len ≤ 31 := by
  have hk : k < 12 := (List.getElem?_eq_some_iff.mp h).1
  have hlens : ∀ len ∈ monthLengths leap, len ≤ 31 := by cases leap <;> decide
  exact ⟨hk, hlens len (List.mem_of_getElem? h)⟩

end Calendar

namespace Date
open Calendar

theorem ofParts?_eq_some {year : Int} {month day : Nat} {d : Date}
    (h : ofParts? year month day = some d) :
    d = ⟨year, month, day⟩ ∧ 0 < month ∧ month ≤ 12 ∧ 0 < day ∧ day ≤ 31 := by
  rw [ofParts?] at h
  split at h
  · exact absurd h (Option.some_ne_none d).symm
  · split at h
    · exact absurd h (Option.some_ne_none d).symm
    · rename_i hpos len hlen
      split at h
      · have hmonth := monthLength_le hlen
        exact ⟨(Option.some.inj h).symm, by omega, by omega, by omega, by omega⟩
      · exact absurd h (Option.some_ne_none d).symm

theorem year_ofDay (day : Int) : (ofDay day).year = yearOfDay day := rfl

theorem toDay_bounds {year : Int} {month day : Nat} {d : Date}
    (h : ofParts? year month day = some d) :
    yearStart year ≤ d.toDay ∧ d.toDay < yearStart (year + 1) := by
  have hyear := yearOfDay_bounds d.toDay
  rw [← year_ofDay, ofDay_toDay h, (ofParts?_eq_some h).1] at hyear
  rw [(ofParts?_eq_some h).1]
  exact hyear

/-- Every day has a date. -/
theorem ofParts?_ofDay (day : Int) :
    ofParts? (ofDay day).year (ofDay day).month (ofDay day).day = some (ofDay day) ∧
      (ofDay day).toDay = day := by
  have hyear := yearOfDay_bounds day
  rw [yearStart_succ] at hyear
  obtain ⟨k, d, len, hfound, hlen, hd, hdays⟩ :=
    daysBefore_monthAndDay (monthLengths (leap (yearOfDay day)))
      (n := (day - yearStart (yearOfDay day)).toNat) (by
        rw [show (monthLengths (leap (yearOfDay day))).length = 12 from rfl]
        omega)
  have hdate : ofDay day = ⟨yearOfDay day, k + 1, d + 1⟩ := by rw [ofDay, hfound]
  rw [hdate]
  constructor
  · simp [ofParts?, hlen, Nat.succ_le_of_lt hd]
  · simp only [toDay, Nat.add_sub_cancel]
    omega

end Date
end PanelSource
