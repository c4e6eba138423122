import Mathlib.Data.Rat.Floor
import PanelSource.Proofs.Number.Nearest
import PanelSource.Result.Table

/-! # Doubles as 64-bit integers

A double loses its fraction and what lies beyond 64 bits becomes the end of their range. An integer
that does not fit is taken to a double that does not fit either. -/
namespace PanelSource

/-- A rational without its fraction. -/
def towardZero (q : ℚ) : ℤ := if 0 ≤ q then ⌊q⌋ else ⌈q⌉

theorem towardZero_neg (q : ℚ) : towardZero (-q) = -towardZero q := by
  unfold towardZero
  rcases lt_trichotomy q 0 with hneg | rfl | hpos
  · rw [if_pos (by linarith), if_neg (by linarith), Int.floor_neg]
  · simp
  · rw [if_neg (by linarith), if_pos (by linarith), Int.ceil_neg]

/-- The point with a sign and a rank. -/
def Grid.signedValue (g : Grid) (negative : Bool) (rank : Nat) : ℚ :=
  if negative = true then -g.value rank else g.value rank

namespace Grid

theorem value_nonneg (g : Grid) (rank : Nat) : 0 ≤ g.value rank := by
  unfold value
  positivity

/-- The first point of a step is a power of two. -/
theorem value_power (g : Grid) {rank k e : Nat} (hrank : rank = k * 2 ^ g.fraction + 2 ^ g.fraction)
    (he : g.lowest + k + g.fraction = e) : g.value rank = 2 ^ e := by
  rw [hrank, value_add (.inr le_rfl) (Nat.pow_lt_pow_right (by decide) (Nat.lt_succ_self _)),
    ← zpow_natCast, ← he, zpow_add₀ two_ne_zero (g.lowest + k), zpow_natCast, mul_comm]
  push_cast
  rfl

theorem value_infinity_single : single.value single.infinity = 2 ^ 128 :=
  value_power single (k := 254) (by decide) (by decide)

theorem value_infinity_double : double.value double.infinity = 2 ^ 1024 :=
  value_power double (k := 2046) (by decide) (by decide)

theorem lt_infinity_of_value_lt {rank : Nat} (h : double.value rank < 2 ^ 1024) :
    rank < double.infinity := by
  rw [← value_infinity_double] at h
  exact (strictMono_value double).lt_iff_lt.mp h

end Grid

namespace Double

def value (x : Double) : ℚ := Grid.double.signedValue x.negative x.rank

theorem truncate_eq (x : Double) : x.truncate = towardZero x.value := by
  have hfloor : towardZero (Grid.double.value x.rank) = (x.ratio.1 / x.ratio.2 : Nat) := by
    rw [towardZero, if_pos (Grid.value_nonneg _ _), ← Grid.ratio_eq,
      Rat.floor_natCast_div_natCast, ratio, Int.natCast_ediv]
  rw [truncate, value, Grid.signedValue, signed]
  split
  · rw [towardZero_neg, hfloor]
  · rw [hfloor]

theorem nearest_lt_infinity {n d : Nat} (hn : n ≤ 2 ^ 127) (hd : 0 < d) :
    Grid.double.nearest n d < Grid.double.infinity := by
  have hquotient : (n : ℚ) / d ≤ n / (1 : Nat) := by
    rw [Nat.cast_one, div_one]
    exact div_le_self (Nat.cast_nonneg n) (by exact_mod_cast hd)
  have hwhole : Grid.double.value (Grid.double.nearest n 1) < 2 ^ 1024 :=
    (Grid.value_nearest_le (by decide) (by decide) hn).trans_lt
      (pow_lt_pow_right₀ one_lt_two (by decide))
  exact (Grid.nearest_mono (by decide) hd one_pos hquotient).trans_lt
    (Grid.lt_infinity_of_value_lt hwhole)

/-- Every 128-bit integer has a nearest double. -/
theorem ofInt?_eq_some {n : ℤ} (h : n.natAbs ≤ 2 ^ 127) :
    ∃ x, ofInt? n = some x ∧ x.negative = decide (n < 0) ∧
      x.rank = Grid.double.nearest n.natAbs 1 := by
  have hrank := nearest_lt_infinity h one_pos
  exact ⟨⟨decide (n < 0), _, hrank⟩, by rw [ofInt?, ofRatio?, ofRank?, dif_pos hrank], rfl, rfl⟩

/-- A decimal has a nearest double, too, where its mantissa has 128 bits. -/
theorem ofDecimal?_eq_some {digits : Nat} (h : digits ≤ 2 ^ 127) (negative : Bool) (scale : Nat) :
    ∃ x, ofDecimal? negative digits (-scale) = some x := by
  have hlength : (Nat.toDigits 10 digits).length ≤ 39 :=
    (Nat.length_toDigits_le_iff (by decide) (by decide)).mpr (h.trans_lt (by decide))
  rw [ofDecimal?]
  split
  · exact ⟨_, rfl⟩
  · have hsize : ¬((Nat.toDigits 10 digits).length : ℤ) + -scale > 400 := by omega
    have hpower : (-(scale : ℤ)).toNat = 0 := by omega
    have hrank := nearest_lt_infinity h (Nat.pow_pos (by decide) : 0 < 10 ^ (- -(scale : ℤ)).toNat)
    rw [if_neg hsize, hpower, Nat.pow_eq, pow_zero, mul_one]
    exact ⟨_, by rw [ofRatio?, ofRank?, Nat.pow_eq, dif_pos hrank]⟩

end Double

section
variable {n : ℤ}

theorem Text.fitsInt64_iff : fitsInt64 n = true ↔ -2 ^ 63 ≤ n ∧ n < 2 ^ 63 := by
  rw [fitsInt64, decide_eq_true_eq, minInt64, maxInt64]
  omega

theorem clampInt64_of_fits (h : Text.fitsInt64 n = true) : clampInt64 n = n := by
  rw [Text.fitsInt64_iff] at h
  simp only [clampInt64, Text.minInt64, Text.maxInt64]
  omega

theorem clampInt64_of_ge (h : 2 ^ 63 ≤ n) : clampInt64 n = Text.maxInt64 := by
  simp only [clampInt64, Text.minInt64, Text.maxInt64]
  omega

theorem clampInt64_of_le (h : n ≤ -2 ^ 63) : clampInt64 n = Text.minInt64 := by
  simp only [clampInt64, Text.minInt64, Text.maxInt64]
  omega

end

/-- An integer beyond 64 bits stays beyond them as a double. -/
theorem doubleMillis_ofInt? {n : ℤ} (hfits : Text.fitsInt64 n = false) {x : Double}
    (hx : x.negative = decide (n < 0) ∧ x.rank = Grid.double.nearest n.natAbs 1) :
    Json.doubleMillis x = clampInt64 n := by
  rw [← Bool.not_eq_true, Text.fitsInt64_iff] at hfits
  have hvalue : 2 ^ 63 ≤ Grid.double.value x.rank := by
    rw [hx.2]
    exact Grid.le_value_nearest (by decide) (by decide) (by omega)
  rw [Json.doubleMillis, Double.truncate_eq, Double.value, Grid.signedValue, hx.1]
  have htruncate : 2 ^ 63 ≤ towardZero (Grid.double.value x.rank) := by
    rw [towardZero, if_pos (Grid.value_nonneg _ _), Int.le_floor]
    exact_mod_cast hvalue
  rcases lt_or_ge n 0 with hneg | hpos
  · rw [if_pos (by simpa using hneg), towardZero_neg, clampInt64_of_le (by omega),
      clampInt64_of_le (by omega)]
  · rw [if_neg (by simpa using hpos), clampInt64_of_ge htruncate, clampInt64_of_ge (by omega)]

namespace Extended

/-- A pattern stands for the double of its value. -/
theorem ofRank_finite {g : Grid} {rank : Nat} (negative : Bool) (hrank : rank < g.infinity)
    {wide : Nat} (hvalue : Grid.double.value wide = g.value rank)
    (hwide : wide < Grid.double.infinity) :
    ∃ x, ofRank g negative rank = .finite x ∧ x.value = g.signedValue negative rank := by
  have hnearest : Grid.double.nearest (g.ratio rank).1 (g.ratio rank).2 = wide :=
    Grid.nearest_eq_of_value (by decide) (g.ratio_snd_pos rank) (by rw [g.ratio_eq, hvalue])
  refine ⟨⟨negative, wide, hwide⟩, ?_, ?_⟩
  · simp only [ofRank, if_neg hrank.not_gt, if_neg hrank.ne, Double.ofRatio?, hnearest,
      Double.ofRank?, dif_pos hwide]
  · rw [Double.value, Grid.signedValue, Grid.signedValue, hvalue]

theorem ofRank_double_finite {rank : Nat} (negative : Bool) (hrank : rank < Grid.double.infinity) :
    ∃ x, ofRank .double negative rank = .finite x ∧
      x.value = Grid.double.signedValue negative rank :=
  ofRank_finite negative hrank rfl hrank

theorem ofRank_single_finite {rank : Nat} (negative : Bool) (hrank : rank < Grid.single.infinity) :
    ∃ x, ofRank .single negative rank = .finite x ∧
      x.value = Grid.single.signedValue negative rank := by
  have hshort : Grid.single.mantissa rank < 2 ^ (Grid.double.fraction + 1) :=
    (RoundingInterval.mantissa_lt .single rank).trans (by decide)
  have hleast : Grid.double.lowest ≤ Grid.single.exponent rank := by
    unfold Grid.exponent
    split
    · decide
    · exact le_trans (by decide) (le_add_of_nonneg_right (Int.natCast_nonneg _))
  obtain ⟨wide, hwide⟩ :=
    Grid.double.exists_rank (Grid.single.exponent rank - Grid.double.lowest).toNat hshort
  rw [Int.toNat_of_nonneg (by omega), add_sub_cancel] at hwide
  refine ofRank_finite negative hrank hwide (Grid.lt_infinity_of_value_lt ?_)
  calc Grid.double.value wide
      < Grid.single.value Grid.single.infinity := hwide.trans_lt (Grid.strictMono_value _ hrank)
    _ = 2 ^ 128 := Grid.value_infinity_single
    _ < 2 ^ 1024 := pow_lt_pow_right₀ one_lt_two (by decide)

end Extended
end PanelSource
