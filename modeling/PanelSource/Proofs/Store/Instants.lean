import PanelSource.Proofs.Result.TypedTimes

/-! # Dates and timestamps as instants

A date or a timestamp becomes the milliseconds of its instant, without what is finer. Only seconds
can be more milliseconds than 64 bits hold, and then they are an overflow. -/
namespace PanelSource

theorem towardZero_mono {p q : ℚ} (h : p ≤ q) : towardZero p ≤ towardZero q := by
  unfold towardZero
  split
  · rename_i hp
    rw [if_pos (hp.trans h)]
    exact Int.floor_le_floor h
  · rename_i hp
    split
    · rename_i hq
      have hceil : ⌈p⌉ ≤ 0 := Int.ceil_le.mpr (by push_cast; linarith)
      exact hceil.trans (Int.floor_nonneg.mpr hq)
    · exact Int.ceil_le_ceil h

theorem towardZero_intCast (n : ℤ) : towardZero n = n := by
  rw [towardZero, Int.floor_intCast, Int.ceil_intCast, ite_self]

theorem towardZero_div (n : ℤ) (d : ℕ) : towardZero (n / d) = n.tdiv d := by
  have hnonneg (m : ℤ) (hm : 0 ≤ m) : towardZero (m / d) = m.tdiv d := by
    rw [towardZero, if_pos (by positivity), Rat.floor_intCast_div_natCast,
      Int.tdiv_eq_ediv_of_nonneg hm]
  rcases le_total 0 n with hn | hn
  · exact hnonneg n hn
  · have hneg := hnonneg (-n) (by omega)
    rw [Int.cast_neg, neg_div, towardZero_neg, Int.neg_tdiv] at hneg
    omega

/-- Milliseconds of so many seconds, without what is finer. -/
def wholeMillis (seconds : ℚ) : ℤ := towardZero (seconds * 1000)

theorem wholeMillis_of_eq {seconds : ℚ} {n : ℤ} (h : seconds * 1000 = n) :
    wholeMillis seconds = n := by
  rw [wholeMillis, h, towardZero_intCast]

theorem wholeMillis_mono {p q : ℚ} (h : p ≤ q) : wholeMillis p ≤ wholeMillis q :=
  towardZero_mono (by linarith)

namespace Cell

/-- The seconds since 1970 that a date or a timestamp says. A date has days of 32 bits, a timestamp
a count of 64 bits. -/
inductive HoldsInstant : Cell → ℚ → Prop
  | date {days : ℤ} (h : IntegerType.int32.holds days = true) :
    HoldsInstant (.date days) (days * 86400)
  | timestamp (unit : TimeUnit) {raw : ℤ} (h : IntegerType.int64.holds raw = true) :
    HoldsInstant (.timestamp unit raw) (raw / unit.perSecond)

/-- The integers that the milliseconds are computed from, and the milliseconds, as they would be
with any number of bits. -/
def millisSteps : Cell → List ℤ
  | date days => [days, millisPerDay, days * millisPerDay]
  | timestamp .second raw => [raw, 1000, raw * 1000]
  | timestamp .millisecond raw => [raw]
  | timestamp .microsecond raw => [raw, 1000, raw.tdiv 1000]
  | timestamp .nanosecond raw => [raw, 1000000, raw.tdiv 1000000]
  | _ => []

/-- A count of seconds is not beyond 64 bits in milliseconds. -/
def Convertible (c : Cell) : Prop :=
  ∀ raw, c = .timestamp .second raw → |raw| ≤ 9223372036854775

variable {c c' : Cell} {q q' : ℚ}

theorem holds_int32_iff {n : ℤ} :
    IntegerType.int32.holds n = true ↔ -2 ^ 31 ≤ n ∧ n < 2 ^ 31 := by
  rw [IntegerType.holds, Bool.and_eq_true, decide_eq_true_eq, decide_eq_true_eq]
  simp only [IntegerType.least, IntegerType.greatest]
  omega

theorem holds_int64_iff {n : ℤ} : IntegerType.int64.holds n = true ↔ Text.fitsInt64 n = true := by
  rw [IntegerType.holds, Bool.and_eq_true, decide_eq_true_eq, decide_eq_true_eq,
    Text.fitsInt64_iff]
  simp only [IntegerType.least, IntegerType.greatest]
  omega

theorem convertible_second_iff {raw : ℤ} :
    (timestamp .second raw).Convertible ↔ Text.fitsInt64 (raw * 1000) = true := by
  have habs : (timestamp .second raw).Convertible ↔ |raw| ≤ 9223372036854775 := by
    constructor
    · exact fun h => h raw rfl
    · rintro h _ ⟨⟩
      exact h
  rw [habs, abs_le, Text.fitsInt64_iff]
  omega

theorem convertible_date (days : ℤ) : (date days).Convertible := by
  intro raw h
  cases h

theorem convertible_timestamp {unit : TimeUnit} (hunit : unit ≠ .second) (raw : ℤ) :
    (timestamp unit raw).Convertible := by
  intro raw' h
  cases h
  exact absurd rfl hunit

theorem fits_tdiv {raw : ℤ} (h : Text.fitsInt64 raw = true) {d : ℕ} (hd : 1 < d) :
    Text.fitsInt64 (raw.tdiv d) = true := by
  have habs : (raw.tdiv d).natAbs ≤ raw.natAbs / 2 := by
    rw [Int.natAbs_tdiv, Int.natAbs_natCast]
    exact Nat.div_le_div_left hd two_pos
  rw [Text.fitsInt64_iff] at h ⊢
  omega

theorem wholeMillis_finer {unit : TimeUnit} (hunit : unit = .microsecond ∨ unit = .nanosecond)
    (raw : ℤ) : wholeMillis (raw / unit.perSecond) = raw.tdiv unit.perMilli := by
  obtain ⟨-, hpos, hsecond⟩ := TimeUnit.millis_eq hunit raw
  have hpos' : (unit.perMilli : ℚ) ≠ 0 := by exact_mod_cast hpos.ne'
  rw [wholeMillis, ← towardZero_div, hsecond]
  congr 1
  push_cast
  field_simp

/-- How a date or a timestamp is converted: the last of its numbers are the milliseconds, which
overflow where they have not 64 bits, and all others have 64 bits. -/
structure Converts (c : Cell) (q : ℚ) : Prop where
  last : c.millisSteps.getLast? = some (wholeMillis q)
  toJson_eq : c.toJson = Json.int (wholeMillis q)
  overflows_eq : c.overflows = !Text.fitsInt64 (wholeMillis q)
  fits_iff : Text.fitsInt64 (wholeMillis q) = true ↔ c.Convertible
  others : ∀ n ∈ c.millisSteps.dropLast, Text.fitsInt64 n = true

theorem converts_of_fits {n : ℤ} (hvalue : wholeMillis q = n) (hfits : Text.fitsInt64 n = true)
    (hlast : c.millisSteps.getLast? = some n) (hjson : c.toJson = Json.int n)
    (hoverflows : c.overflows = !Text.fitsInt64 n) (hconvertible : c.Convertible)
    (hothers : ∀ n ∈ c.millisSteps.dropLast, Text.fitsInt64 n = true) : c.Converts q where
  last := by rw [hvalue, hlast]
  toJson_eq := by rw [hvalue, hjson]
  overflows_eq := by rw [hvalue, hoverflows]
  fits_iff := by
    rw [hvalue]
    exact iff_of_true hfits hconvertible
  others := hothers

theorem fits_pair {n m : ℤ} (hn : Text.fitsInt64 n = true) (hm : Text.fitsInt64 m = true) :
    ∀ k ∈ [n, m], Text.fitsInt64 k = true :=
  List.forall_mem_cons.mpr ⟨hn, List.forall_mem_singleton.mpr hm⟩

theorem converts_finer {unit : TimeUnit} (hunit : unit = .microsecond ∨ unit = .nanosecond)
    {raw : ℤ} (hraw : Text.fitsInt64 raw = true) :
    (timestamp unit raw).Converts (raw / unit.perSecond) := by
  have hvalue := wholeMillis_finer hunit raw
  rcases hunit with rfl | rfl
  · exact converts_of_fits hvalue (fits_tdiv hraw (by decide)) rfl rfl
      (overflows_timestamp _ raw) (convertible_timestamp (by decide) raw)
      (fits_pair hraw (by decide))
  · exact converts_of_fits hvalue (fits_tdiv hraw (by decide)) rfl rfl
      (overflows_timestamp _ raw) (convertible_timestamp (by decide) raw)
      (fits_pair hraw (by decide))

theorem HoldsInstant.converts (h : c.HoldsInstant q) : c.Converts q := by
  cases h with
  | @date days h =>
    have hdays := holds_int32_iff.mp h
    have hcount : Text.fitsInt64 days = true := Text.fitsInt64_iff.mpr (by omega)
    have hfits : Text.fitsInt64 (days * millisPerDay) = true := by
      rw [Text.fitsInt64_iff, millisPerDay]
      omega
    refine converts_of_fits ?_ hfits rfl rfl rfl (convertible_date days)
      (fits_pair hcount (by decide))
    exact wholeMillis_of_eq (by rw [millisPerDay]; push_cast; ring)
  | @timestamp unit raw h =>
    have hraw := holds_int64_iff.mp h
    cases unit with
    | second =>
      have hvalue : wholeMillis (raw / TimeUnit.second.perSecond) = raw * 1000 :=
        wholeMillis_of_eq (by rw [TimeUnit.perSecond]; push_cast; ring)
      refine ⟨by rw [hvalue]; rfl, by rw [hvalue]; rfl, ?_, ?_, ?_⟩
      · rw [hvalue, overflows_timestamp, TimeUnit.millis]
      · rw [hvalue, convertible_second_iff]
      · exact fits_pair hraw (by decide)
    | millisecond =>
      have hvalue : wholeMillis (raw / TimeUnit.millisecond.perSecond) = raw :=
        wholeMillis_of_eq (by rw [TimeUnit.perSecond]; push_cast; ring)
      exact converts_of_fits hvalue hraw rfl rfl (overflows_timestamp _ raw)
        (convertible_timestamp (by decide) raw) (List.forall_mem_nil _)
    | microsecond => exact converts_finer (.inl rfl) hraw
    | nanosecond => exact converts_finer (.inr rfl) hraw

theorem HoldsInstant.toJson?_eq (h : c.HoldsInstant q) : c.toJson? =
    if Text.fitsInt64 (wholeMillis q) = true then some (Json.int (wholeMillis q)) else none := by
  rw [toJson?, h.converts.toJson_eq, h.converts.overflows_eq]
  cases Text.fitsInt64 (wholeMillis q) <;> rfl

/-- Instants beyond 64 bits are counted in seconds only. -/
theorem HoldsInstant.eq_of_not_fits (h : c.HoldsInstant q) (h' : c'.HoldsInstant q)
    (hfits : Text.fitsInt64 (wholeMillis q) ≠ true) : c = c' := by
  have hsecond {c : Cell} (h : c.HoldsInstant q) :
      ∃ raw : ℤ, c = .timestamp .second raw ∧ raw = q := by
    have hnot := mt h.converts.fits_iff.mpr hfits
    simp only [Convertible, not_forall] at hnot
    obtain ⟨raw, rfl, -⟩ := hnot
    cases h
    exact ⟨raw, rfl, by rw [TimeUnit.perSecond, Nat.cast_one, div_one]⟩
  obtain ⟨raw, rfl, hraw⟩ := hsecond h
  obtain ⟨raw', rfl, hraw'⟩ := hsecond h'
  rw [Int.cast_injective (hraw.trans hraw'.symm)]

/-- A conversion keeps to 64 bits and gives the milliseconds of the instant unless it is one of too
many seconds: then it overflows. -/
theorem conversion_fits_iff (h : c.HoldsInstant q) :
    c.millisSteps.getLast? = some (wholeMillis q) ∧
      (0 ≤ q → 0 ≤ wholeMillis q) ∧ (q ≤ 0 → wholeMillis q ≤ 0) ∧
      ((∀ n ∈ c.millisSteps, Text.fitsInt64 n = true) ↔ c.Convertible) ∧
      (c.Convertible → c.toJson? = some (Json.int (wholeMillis q))) ∧
      (¬c.Convertible → c.toJson? = none) := by
  have hzero : wholeMillis 0 = 0 := wholeMillis_of_eq (by simp)
  have hsteps : c.millisSteps = c.millisSteps.dropLast ++ [wholeMillis q] :=
    (List.dropLast_append_getLast? _ h.converts.last).symm
  refine ⟨h.converts.last, fun hq => hzero ▸ wholeMillis_mono hq,
    fun hq => hzero ▸ wholeMillis_mono hq, ?_, ?_, ?_⟩
  · rw [← h.converts.fits_iff, hsteps, List.forall_mem_append, List.forall_mem_singleton]
    exact and_iff_right h.converts.others
  · rw [← h.converts.fits_iff, h.toJson?_eq]
    exact fun hfits => if_pos hfits
  · rw [← h.converts.fits_iff, h.toJson?_eq]
    exact fun hfits => if_neg hfits

/-- The first day there is, and the last second that is converted. -/
theorem conversion_fits_iff_ends :
    (date (-2147483648)).HoldsInstant ((-2147483648 : ℤ) * 86400) ∧
      (∀ n ∈ (date (-2147483648)).millisSteps, Text.fitsInt64 n = true) ∧
      (timestamp .second 9223372036854775).HoldsInstant
        ((9223372036854775 : ℤ) / TimeUnit.second.perSecond) ∧
      (∀ n ∈ (timestamp .second 9223372036854775).millisSteps, Text.fitsInt64 n = true) ∧
      (timestamp .second 9223372036854776).toJson? = none := by
  have hday : (date (-2147483648)).HoldsInstant ((-2147483648 : ℤ) * 86400) := .date (by decide)
  have hsecond : (timestamp .second 9223372036854775).HoldsInstant
      ((9223372036854775 : ℤ) / TimeUnit.second.perSecond) := .timestamp .second (by decide)
  have hnext : (timestamp .second 9223372036854776).HoldsInstant
      ((9223372036854776 : ℤ) / TimeUnit.second.perSecond) := .timestamp .second (by decide)
  refine ⟨hday, (conversion_fits_iff hday).2.2.2.1.mpr (convertible_date _), hsecond,
    (conversion_fits_iff hsecond).2.2.2.1.mpr ?_, (conversion_fits_iff hnext).2.2.2.2.2 ?_⟩
  · rintro _ ⟨⟩
    decide
  · exact fun h => absurd (h _ rfl) (by decide)

/-- The count of seconds that stands for no end of time is an overflow. -/
theorem endless_overflows :
    (timestamp .second 9223372036854775807).HoldsInstant
        ((9223372036854775807 : ℤ) / TimeUnit.second.perSecond) ∧
      (timestamp .second 9223372036854775807).millisSteps =
        [9223372036854775807, 1000, 9223372036854775807000] ∧
      Text.fitsInt64 9223372036854775807000 = false ∧
      TimeUnit.second.millis? 9223372036854775807 = none ∧
      (timestamp .second 9223372036854775807).toJson? = none :=
  ⟨.timestamp .second (by decide), rfl, by decide, by decide, by decide⟩

end Cell
end PanelSource
