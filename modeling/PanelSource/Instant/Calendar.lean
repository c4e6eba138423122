/-! # Days and dates of the Gregorian calendar, and instants

Days are counted from 1 January 1970. The calendar is continued before the year 1, with a year 0. -/
namespace PanelSource

structure Date where
  year : Int
  month : Nat
  day : Nat
  deriving DecidableEq, Repr

namespace Calendar

def leap (year : Int) : Bool := (year % 4 == 0 && year % 100 != 0) || year % 400 == 0

def monthLengths (leap : Bool) : List Nat :=
  [31, if leap then 29 else 28, 31, 30, 31, 30, 31, 31, 30, 31, 30, 31]

/-- Days in the first months, by the lengths of the months. -/
def daysBefore : List Nat → Nat → Nat
  | len :: rest, k + 1 => len + daysBefore rest k
  | _, _ => 0

/-- Days before 1 January of a year. -/
def yearStart (year : Int) : Int :=
  365 * (year - 1) + (year - 1) / 4 - (year - 1) / 100 + (year - 1) / 400 - 719162

/-- The month and day of the month that a day of the year falls on, both from one on, by the lengths
of the months. -/
def monthAndDay : List Nat → Nat → Nat × Nat
  | [], n => (1, n + 1)
  | len :: rest, n =>
    if n < len then (1, n + 1)
    else let (m, d) := monthAndDay rest (n - len); (m + 1, d)

/-- The year by the mean length of years. -/
def meanYear (day : Int) : Int := (day + 719162) * 400 / 146097 + 1

/-- The year a day lies in, which the mean year is up to one. -/
def yearOfDay (day : Int) : Int :=
  let y := meanYear day
  if day < yearStart y then y - 1
  else if yearStart (y + 1) ≤ day then y + 1
  else y

theorem yearStart_le {x y : Int} (h : x ≤ y) : yearStart x ≤ yearStart y := by
  unfold yearStart
  omega

theorem meanYear_near (day : Int) :
    yearStart (meanYear day - 1) ≤ day ∧ day < yearStart (meanYear day + 2) := by
  unfold yearStart meanYear
  omega

/-- Every day lies in its year. -/
theorem yearOfDay_bounds (day : Int) :
    yearStart (yearOfDay day) ≤ day ∧ day < yearStart (yearOfDay day + 1) := by
  have h := meanYear_near day
  simp only [yearOfDay]
  split
  · rw [show meanYear day - 1 + 1 = meanYear day by omega]
    omega
  · split
    · rw [show meanYear day + 1 + 1 = meanYear day + 2 by omega]
      omega
    · omega

/-- No other year has the day. -/
theorem yearOfDay_eq {day year : Int} (h : yearStart year ≤ day) (h' : day < yearStart (year + 1)) :
    yearOfDay day = year := by
  have ⟨b, b'⟩ := yearOfDay_bounds day
  by_cases hlt : yearOfDay day < year
  · have := yearStart_le (x := yearOfDay day + 1) (y := year) (by omega)
    omega
  · by_cases hgt : year < yearOfDay day
    · have := yearStart_le (x := year + 1) (y := yearOfDay day) (by omega)
      omega
    · omega

/-- The twelve months fill the year. -/
theorem yearStart_succ (y : Int) :
    yearStart (y + 1) = yearStart y + (daysBefore (monthLengths (leap y)) 12 : Nat) := by
  have h : daysBefore (monthLengths (leap y)) 12 = if leap y then 366 else 365 := by
    cases leap y <;> rfl
  rw [h]
  unfold yearStart leap
  split <;> rename_i hl <;> simp at hl <;> omega

/-- A day is found in the month that the days before it lead to. -/
theorem monthAndDay_of_daysBefore (lens : List Nat) (k len n : Nat) (hk : lens[k]? = some len)
    (hn : n < len) : monthAndDay lens (daysBefore lens k + n) = (k + 1, n + 1) := by
  induction lens generalizing k with
  | nil => simp at hk
  | cons l rest ih =>
    cases k with
    | zero =>
      simp at hk
      simp [monthAndDay, daysBefore, hk, hn]
    | succ k =>
      simp at hk
      rw [show daysBefore (l :: rest) (k + 1) + n = l + (daysBefore rest k + n) by
        simp [daysBefore]; omega]
      simp [monthAndDay, ih k hk]

theorem daysBefore_add_lt (lens : List Nat) (k len n : Nat) (hk : lens[k]? = some len)
    (hn : n < len) : daysBefore lens k + n < daysBefore lens lens.length := by
  induction lens generalizing k with
  | nil => simp at hk
  | cons l rest ih =>
    cases k with
    | zero =>
      simp at hk
      simp [daysBefore]
      omega
    | succ k =>
      simp at hk
      have := ih k hk
      simp [daysBefore]
      omega

end Calendar

namespace Date

open Calendar

/-- A day that its month has. -/
def ofParts? (year : Int) (month day : Nat) : Option Date :=
  if month = 0 ∨ day = 0 then none
  else match (monthLengths (leap year))[month - 1]? with
    | none => none
    | some len => if day ≤ len then some ⟨year, month, day⟩ else none

def toDay (d : Date) : Int :=
  yearStart d.year + (daysBefore (monthLengths (leap d.year)) (d.month - 1) + (d.day - 1) : Nat)

def ofDay (day : Int) : Date :=
  let year := yearOfDay day
  let (month, d) := monthAndDay (monthLengths (leap year)) (day - yearStart year).toNat
  ⟨year, month, d⟩

/-- A date is found again from its day. -/
theorem ofDay_toDay {year : Int} {month day : Nat} {d : Date}
    (h : ofParts? year month day = some d) : ofDay d.toDay = d := by
  unfold ofParts? at h
  split at h
  · simp at h
  · split at h
    · simp at h
    · rename_i hz len hlen
      split at h
      · rename_i hle
        simp only [Option.some.injEq] at h
        subst h
        have hlt := daysBefore_add_lt _ _ _ (day - 1) hlen (by omega)
        rw [show (monthLengths (leap year)).length = 12 from rfl] at hlt
        have hy : yearOfDay (toDay ⟨year, month, day⟩) = year := by
          apply yearOfDay_eq
          · simp only [toDay]; omega
          · rw [yearStart_succ]; simp only [toDay]; omega
        simp only [ofDay, hy]
        have : (toDay ⟨year, month, day⟩ - yearStart year).toNat =
            daysBefore (monthLengths (leap year)) (month - 1) + (day - 1) := by
          simp only [toDay]; omega
        rw [this, monthAndDay_of_daysBefore _ _ len _ hlen (by omega)]
        simp; omega
      · simp at h

end Date

/-- Seconds since 1970 and the nanoseconds after them. A leap second is the second before it with
nanoseconds from 10^9 on. -/
structure Instant where
  seconds : Int
  nanos : Nat
  deriving DecidableEq, Repr

namespace Instant

/-- Rounded down. -/
def millis (t : Instant) : Int := t.seconds * 1000 + (t.nanos / 1000000 : Nat)

def leastYear : Int := -262143
def greatestYear : Int := 262142

def admitted (d : Date) : Bool := leastYear ≤ d.year && d.year ≤ greatestYear

/-- The second sixty of a minute is its leap second. -/
def ofLocal? (date : Date) (hour minute second : Nat) (nanos : Nat) (offset : Int) :
    Option Instant :=
  let s := date.toDay * 86400 + (hour * 3600 + minute * 60 + min second 59 : Nat) - offset
  if hour < 24 ∧ minute < 60 ∧ second ≤ 60 ∧ admitted date ∧ admitted (Date.ofDay (s / 86400)) then
    some ⟨s, if second = 60 then nanos + 1000000000 else nanos⟩
  else none

end Instant
end PanelSource
