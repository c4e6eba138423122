import PanelSource.Proofs.Number.ShortestRounds

/-! # Rounding to the nearest point

A rational is in the interval of the rank that it is taken to. As no rational is in two intervals,
points are taken to themselves and rounding keeps the order. -/
namespace PanelSource

/-- The rounded quotient is at most half a unit away, and less than that if it is odd. -/
theorem roundHalfEven_near (n : Nat) {d : Nat} (hd : 0 < d) :
    (roundHalfEven n d - 1 / 2 ≤ (n : ℚ) / d ∧ (n : ℚ) / d ≤ roundHalfEven n d + 1 / 2) ∧
      (roundHalfEven n d % 2 = 1 →
        roundHalfEven n d - 1 / 2 < (n : ℚ) / d ∧ (n : ℚ) / d < roundHalfEven n d + 1 / 2) := by
  have hd' : (0 : ℚ) < d := Nat.cast_pos.mpr hd
  rw [Decimal.cast_div_eq_add n hd]
  have hrest : ((n % d : Nat) : ℚ) / d < 1 := by
    rw [div_lt_one hd']
    exact_mod_cast Nat.mod_lt n hd
  have hrest' : 0 ≤ ((n % d : Nat) : ℚ) / d := by positivity
  rcases Nat.lt_trichotomy (2 * (n % d)) d with hbelow | hhalf | habove
  · have hdown : roundHalfEven n d = n / d := if_pos hbelow
    have hsmall : ((n % d : Nat) : ℚ) / d < 1 / 2 := by
      rw [div_lt_div_iff₀ hd' two_pos]
      exact_mod_cast (show n % d * 2 < 1 * d by omega)
    rw [hdown]
    exact ⟨⟨by linarith, by linarith⟩, fun _ => ⟨by linarith, by linarith⟩⟩
  · have htie : roundHalfEven n d = n / d + n / d % 2 := by
      rw [roundHalfEven, if_neg (by omega), if_neg (by omega)]
    have hrest : ((n % d : Nat) : ℚ) / d = 1 / 2 := by
      rw [div_eq_div_iff hd'.ne' two_ne_zero]
      exact_mod_cast (show n % d * 2 = 1 * d by omega)
    have hodd : (n / d % 2 : Nat) ≤ (1 : ℚ) := by exact_mod_cast (show n / d % 2 ≤ 1 by omega)
    have hodd' : (0 : ℚ) ≤ (n / d % 2 : Nat) := Nat.cast_nonneg _
    rw [htie, hrest]
    push_cast at hodd hodd' ⊢
    exact ⟨⟨by linarith, by linarith⟩, fun hone => absurd hone (by omega)⟩
  · have hup : roundHalfEven n d = n / d + 1 := by
      rw [roundHalfEven, if_neg (by omega), if_pos habove]
    have hlarge : 1 / 2 < ((n % d : Nat) : ℚ) / d := by
      rw [div_lt_div_iff₀ two_pos hd']
      exact_mod_cast (show 1 * d < n % d * 2 by omega)
    rw [hup]
    push_cast
    exact ⟨⟨by linarith, by linarith⟩, fun _ => ⟨by linarith, by linarith⟩⟩

section
variable {n d : Nat}

theorem zpow_binaryExponent_le (hn : 0 < n) (hd : 0 < d) :
    (2 : ℚ) ^ binaryExponent n d ≤ n / d := by
  have hd' : (0 : ℚ) < d := Nat.cast_pos.mpr hd
  simp only [binaryExponent, Nat.pow_eq, Int.ofNat_eq_natCast]
  split
  · rename_i hle
    rw [zpow_eq_div two_ne_zero (_ - _), div_le_div_iff₀ (by positivity) hd']
    exact_mod_cast (Nat.mul_comm _ _).trans_le hle
  · have hleast : 2 ^ n.log2 ≤ n := Nat.log2_self_le hn.ne'
    have hgreat : d < 2 ^ (d.log2 + 1) := Nat.lt_log2_self
    have hexponent : (n.log2 : ℤ) - d.log2 - 1 = n.log2 - (d.log2 + 1 : Nat) := by omega
    rw [hexponent, zpow_sub₀ two_ne_zero, zpow_natCast, zpow_natCast]
    exact div_le_div₀ (Nat.cast_nonneg n) (by exact_mod_cast hleast) hd'
      (by exact_mod_cast hgreat.le)

theorem lt_zpow_binaryExponent (hd : 0 < d) :
    (n : ℚ) / d < 2 ^ (binaryExponent n d + 1) := by
  have hd' : (0 : ℚ) < d := Nat.cast_pos.mpr hd
  simp only [binaryExponent, Nat.pow_eq, Int.ofNat_eq_natCast]
  split
  · have hgreat : n < 2 ^ (n.log2 + 1) := Nat.lt_log2_self
    have hleast : 2 ^ d.log2 ≤ d := Nat.log2_self_le hd.ne'
    have hexponent : (n.log2 : ℤ) - d.log2 + 1 = (n.log2 + 1 : Nat) - d.log2 := by omega
    rw [hexponent, zpow_sub₀ two_ne_zero, zpow_natCast, zpow_natCast]
    exact div_lt_div₀ (by exact_mod_cast hgreat) (by exact_mod_cast hleast) (by positivity)
      (by positivity)
  · rename_i hlt
    rw [sub_add_cancel, zpow_eq_div two_ne_zero (_ - _), div_lt_div_iff₀ hd' (by positivity)]
    exact_mod_cast (not_le.mp hlt).trans_eq (Nat.mul_comm _ _)

end

namespace Grid

section
variable (g : Grid)

/-- How a rational is taken to a rank: in units of the step of its ranks it is rounded to an
integer, which has one digit more than a fraction unless the step is the least one. -/
theorem nearest_eq {n d : Nat} (hn : 0 < n) (hd : 0 < d) :
    ∃ k num den : Nat, 0 < den ∧ (n : ℚ) / d = num / den * 2 ^ (g.lowest + k) ∧
      (num : ℚ) / den < 2 ^ (g.fraction + 1) ∧ (k = 0 ∨ (2 : ℚ) ^ g.fraction ≤ num / den) ∧
      g.nearest n d = k * 2 ^ g.fraction + roundHalfEven num den := by
  have hd' : (d : ℚ) ≠ 0 := Nat.cast_ne_zero.mpr hd.ne'
  obtain ⟨q, hq⟩ : ∃ q, q = max (binaryExponent n d - g.fraction) g.lowest := ⟨_, rfl⟩
  have hstep : g.lowest + (q - g.lowest).toNat = q := by omega
  have hpow : (0 : ℚ) < 2 ^ q := by positivity
  have hscaled : (n : ℚ) / d = (n * 2 ^ (-q).toNat : Nat) / (d * 2 ^ q.toNat : Nat) * 2 ^ q := by
    rw [zpow_eq_div two_ne_zero q]
    push_cast
    field_simp
  refine ⟨(q - g.lowest).toNat, n * 2 ^ (-q).toNat, d * 2 ^ q.toNat, by positivity, ?_, ?_, ?_, ?_⟩
  · rw [hstep]
    exact hscaled
  · have hlt : (n : ℚ) / d < 2 ^ (g.fraction + 1 : Nat) * 2 ^ q := by
      rw [← zpow_natCast, ← zpow_add₀ two_ne_zero]
      exact (lt_zpow_binaryExponent hd).trans_le
        (zpow_le_zpow_right₀ one_le_two (by push_cast; omega))
    rw [hscaled] at hlt
    exact lt_of_mul_lt_mul_right hlt hpow.le
  · rcases le_total (binaryExponent n d - g.fraction) g.lowest with hleast | hlarge
    · exact .inl (by omega)
    · have hle : 2 ^ g.fraction * 2 ^ q ≤ (n : ℚ) / d := by
        rw [← zpow_natCast, ← zpow_add₀ two_ne_zero]
        exact (zpow_le_zpow_right₀ one_le_two (by omega)).trans (zpow_binaryExponent_le hn hd)
      rw [hscaled] at hle
      exact .inr (le_of_mul_le_mul_right hle hpow)
  · rw [nearest, if_neg hn.ne', ← hq]
    simp only [Nat.pow_eq]

variable {g} {k m : Nat}

/-- The ranks with one step. -/
theorem mantissa_add (hk : k = 0 ∨ 2 ^ g.fraction ≤ m) (hm : m < 2 ^ (g.fraction + 1)) :
    g.mantissa (k * 2 ^ g.fraction + m) = m ∧
      g.exponent (k * 2 ^ g.fraction + m) = g.lowest + k := by
  rw [pow_succ] at hm
  simp only [mantissa, exponent, Nat.pow_eq]
  generalize hF : 2 ^ g.fraction = F at hk hm ⊢
  by_cases hsmall : m < F
  · have hzero : k = 0 := hk.resolve_right (by omega)
    simp [hzero, hsmall]
  · have hrank : k * F + m = (m - F) + F * (k + 1) := by rw [Nat.mul_succ, Nat.mul_comm k]; omega
    have hlarge : ¬k * F + m < F := by rw [hrank, Nat.mul_succ]; omega
    have hpos : 0 < F := by omega
    rw [if_neg hlarge, if_neg hlarge, hrank, Nat.add_mul_mod_self_left,
      Nat.add_mul_div_left _ _ hpos, Nat.mod_eq_of_lt (by omega), Nat.div_eq_of_lt (by omega)]
    exact ⟨by omega, by omega⟩

theorem value_add (hk : k = 0 ∨ 2 ^ g.fraction ≤ m) (hm : m < 2 ^ (g.fraction + 1)) :
    g.value (k * 2 ^ g.fraction + m) = m * 2 ^ (g.lowest + k) := by
  rw [value, (mantissa_add hk hm).1, (mantissa_add hk hm).2]

end

end Grid

namespace RoundingInterval

section
variable {g : Grid} {k m : Nat}

theorem half_step (e : ℤ) : (2 : ℚ) ^ (e - 2) = 2 ^ e / 4 := by
  rw [zpow_sub₀ two_ne_zero]
  norm_num

theorem upper_add (hk : k = 0 ∨ 2 ^ g.fraction ≤ m) (hm : m < 2 ^ (g.fraction + 1)) :
    (ofRank g (k * 2 ^ g.fraction + m)).upper = (m + 1 / 2) * 2 ^ (g.lowest + k) := by
  rw [upper_eq, (Grid.mantissa_add hk hm).1, (Grid.mantissa_add hk hm).2, half_step]
  push_cast
  ring

/-- The last of these ranks is the first one of the next step. -/
theorem lt_upper_add (hm : m = 2 ^ (g.fraction + 1)) :
    m * 2 ^ (g.lowest + k) < (ofRank g (k * 2 ^ g.fraction + m)).upper := by
  have hrank : k * 2 ^ g.fraction + m = (k + 1) * 2 ^ g.fraction + 2 ^ g.fraction := by
    rw [hm, pow_succ]
    ring
  have hexponent : g.lowest + (k + 1 : Nat) = g.lowest + k + 1 := by push_cast; ring
  have hstep : (0 : ℚ) < 2 ^ (g.lowest + k) := by positivity
  rw [hrank, upper_add (.inr le_rfl) (Nat.pow_lt_pow_right (by decide) (Nat.lt_succ_self _)), hm,
    hexponent, zpow_add_one₀ two_ne_zero, pow_succ]
  push_cast
  linarith

theorem lower_add (hk : k = 0 ∨ 2 ^ g.fraction < m) (hpos : 0 < m)
    (hm : m ≤ 2 ^ (g.fraction + 1)) :
    (ofRank g (k * 2 ^ g.fraction + m)).lower = (m - 1 / 2) * 2 ^ (g.lowest + k) := by
  obtain ⟨m, rfl⟩ := Nat.exists_eq_succ_of_ne_zero hpos.ne'
  rw [Nat.add_succ, ← upper_eq_lower_succ, upper_add (by omega) (by omega)]
  push_cast
  ring

theorem lower_lt_value {rank : Nat} (h : 0 < g.mantissa rank) :
    (ofRank g rank).lower < g.value rank := by
  have hlower := lower_le_value_sub g h
  have hstep : (0 : ℚ) < 2 ^ (g.exponent rank - 2) := by positivity
  linarith

theorem holds_of_le {rank : Nat} {q : ℚ}
    (hle : (ofRank g rank).lower ≤ q ∧ q ≤ (ofRank g rank).upper)
    (hlt : rank % 2 = 1 → (ofRank g rank).lower < q ∧ q < (ofRank g rank).upper) :
    (ofRank g rank).Holds q := by
  rw [Holds]
  split
  · exact hle
  · rename_i hopen
    rw [closed_iff] at hopen
    exact hlt (by omega)

theorem le_upper_add {x : ℚ} (hk : k = 0 ∨ 2 ^ g.fraction ≤ m) (hm : m ≤ 2 ^ (g.fraction + 1))
    (hlt : x < 2 ^ (g.fraction + 1)) (hle : x ≤ m + 1 / 2) :
    x * 2 ^ (g.lowest + k) ≤ (ofRank g (k * 2 ^ g.fraction + m)).upper ∧
      (x < m + 1 / 2 → x * 2 ^ (g.lowest + k) < (ofRank g (k * 2 ^ g.fraction + m)).upper) := by
  have hstep : (0 : ℚ) < 2 ^ (g.lowest + k) := by positivity
  rcases hm.lt_or_eq with hless | hlast
  · rw [upper_add hk hless]
    exact ⟨mul_le_mul_of_nonneg_right hle hstep.le,
      fun hless => mul_lt_mul_of_pos_right hless hstep⟩
  · have hbelow : x < m := by
      rw [hlast]
      exact_mod_cast hlt
    have hless := (mul_lt_mul_of_pos_right hbelow hstep).trans (lt_upper_add hlast)
    exact ⟨hless.le, fun _ => hless⟩

theorem lower_add_le {x : ℚ} (hk : k = 0 ∨ 2 ^ g.fraction ≤ m) (hm : m ≤ 2 ^ (g.fraction + 1))
    (hx : 0 ≤ x) (hkx : k = 0 ∨ 2 ^ g.fraction ≤ x) (hle : m - 1 / 2 ≤ x) :
    (ofRank g (k * 2 ^ g.fraction + m)).lower ≤ x * 2 ^ (g.lowest + k) ∧
      (0 < m → m - 1 / 2 < x →
        (ofRank g (k * 2 ^ g.fraction + m)).lower < x * 2 ^ (g.lowest + k)) := by
  have hstep : (0 : ℚ) < 2 ^ (g.lowest + k) := by positivity
  have hfraction : 0 < 2 ^ g.fraction := Nat.pow_pos (by decide)
  rcases Nat.eq_zero_or_pos m with rfl | hpos
  · obtain rfl : k = 0 := hk.resolve_right (by omega)
    rw [Nat.zero_mul, lower_zero]
    exact ⟨by positivity, fun hfalse => absurd hfalse (by omega)⟩
  by_cases hinner : k = 0 ∨ 2 ^ g.fraction < m
  · rw [lower_add hinner hpos hm]
    exact ⟨mul_le_mul_of_nonneg_right hle hstep.le,
      fun _ hless => mul_lt_mul_of_pos_right hless hstep⟩
  · have hfirst : m = 2 ^ g.fraction := by omega
    have hless : m < 2 ^ (g.fraction + 1) := by rw [pow_succ]; omega
    have hvalue : (m : ℚ) * 2 ^ (g.lowest + k) ≤ x * 2 ^ (g.lowest + k) := by
      refine mul_le_mul_of_nonneg_right ?_ hstep.le
      rw [hfirst]
      exact_mod_cast hkx.resolve_left (by omega)
    rw [← Grid.value_add hk hless] at hvalue
    have hbelow := (lower_lt_value (mantissa_pos g (by omega))).trans_le hvalue
    exact ⟨hbelow.le, fun _ _ => hbelow⟩

/-- A rational is in the interval of the rank that it is taken to. -/
theorem holds_nearest (hg : 0 < g.fraction) (n : Nat) {d : Nat} (hd : 0 < d) :
    (ofRank g (g.nearest n d)).Holds (n / d) := by
  rcases Nat.eq_zero_or_pos n with rfl | hn
  · rw [Grid.nearest, if_pos rfl, Nat.cast_zero, zero_div]
    exact holds_zero g
  obtain ⟨k, num, den, hden, hq, hlt, hk, hrank⟩ := g.nearest_eq hn hd
  obtain ⟨⟨hdown, hup⟩, hodd⟩ := roundHalfEven_near num hden
  have hnonneg : (0 : ℚ) ≤ num / den := by positivity
  rw [hrank, hq]
  generalize roundHalfEven num den = m at *
  have hk' : k = 0 ∨ 2 ^ g.fraction ≤ m := by
    refine hk.imp_right fun hle => ?_
    have hclose : ((2 ^ g.fraction : Nat) : ℚ) < (m + 1 : Nat) := by push_cast; linarith
    exact Nat.lt_succ_iff.mp (by exact_mod_cast hclose)
  have hm : m ≤ 2 ^ (g.fraction + 1) := by
    have hclose : (m : ℚ) < (2 ^ (g.fraction + 1) + 1 : Nat) := by push_cast; linarith
    exact Nat.lt_succ_iff.mp (by exact_mod_cast hclose)
  have hparity : (k * 2 ^ g.fraction + m) % 2 = m % 2 := by
    obtain ⟨f, hf⟩ := Nat.exists_eq_succ_of_ne_zero hg.ne'
    rw [hf, pow_succ, ← Nat.mul_assoc]
    omega
  have hupper := le_upper_add hk' hm hlt hup
  have hlower := lower_add_le hk' hm hnonneg hk hdown
  refine holds_of_le ⟨hlower.1, hupper.1⟩ fun hone => ?_
  rw [hparity] at hone
  exact ⟨hlower.2 (by omega) (hodd hone).1, hupper.2 (hodd hone).2⟩

theorem holds_value (g : Grid) (rank : Nat) : (ofRank g rank).Holds (g.value rank) := by
  rcases Nat.eq_zero_or_pos rank with rfl | hrank
  · rw [Grid.value, mantissa_zero, Nat.cast_zero, zero_mul]
    exact holds_zero g
  · have hlower := lower_le_value_sub g (mantissa_pos g hrank)
    have hupper := value_add_le_upper g rank
    have hstep : (0 : ℚ) < 2 ^ (g.exponent rank - 2) := by positivity
    exact holds_of_lt (by linarith) (by linarith)

end

end RoundingInterval

namespace Grid

section
variable {g : Grid}

/-- A point is taken to itself. -/
theorem nearest_eq_of_value (hg : 0 < g.fraction) {n d rank : Nat} (hd : 0 < d)
    (h : (n : ℚ) / d = g.value rank) : g.nearest n d = rank := by
  have hnearest := RoundingInterval.holds_nearest hg n hd
  rw [h] at hnearest
  exact RoundingInterval.rank_unique hnearest (RoundingInterval.holds_value g rank)

/-- Rounding keeps the order. -/
theorem nearest_mono (hg : 0 < g.fraction) {n d n' d' : Nat} (hd : 0 < d) (hd' : 0 < d')
    (h : (n : ℚ) / d ≤ n' / d') : g.nearest n d ≤ g.nearest n' d' := by
  have hholds := RoundingInterval.holds_nearest hg n hd
  have hholds' := RoundingInterval.holds_nearest hg n' hd'
  by_contra hlt
  have hends := (RoundingInterval.strictMono_lower g).monotone (Nat.succ_le_of_lt (not_le.mp hlt))
  simp only [Nat.succ_eq_add_one, ← RoundingInterval.upper_eq_lower_succ] at hends
  have hmeet : (n : ℚ) / d = n' / d' :=
    le_antisymm h (hholds'.le.2.trans (hends.trans hholds.le.1))
  rw [hmeet] at hholds
  exact hlt (RoundingInterval.rank_unique hholds hholds').le

theorem value_succ (g : Grid) (rank : Nat) :
    g.value (rank + 1) = g.value rank + 2 ^ g.exponent rank := by
  rw [value, value]
  rcases RoundingInterval.succ_cases g rank with ⟨he, hm, -⟩ | ⟨he, hm, -⟩
  · rw [he, hm]
    push_cast
    ring
  · have hdouble : (2 : ℚ) * g.mantissa (rank + 1) = g.mantissa rank + 1 := by exact_mod_cast hm
    rw [he, zpow_add_one₀ two_ne_zero, mul_left_comm, mul_comm _ (2 : ℚ), hdouble]
    ring

theorem strictMono_value (g : Grid) : StrictMono g.value :=
  strictMono_nat_of_lt_succ fun rank => by
    rw [value_succ]
    exact lt_add_of_pos_right _ (by positivity)

/-- Every short integer times a step is a point. -/
theorem exists_rank (g : Grid) (k : Nat) {m : Nat} (hm : m < 2 ^ (g.fraction + 1)) :
    ∃ rank, g.value rank = m * 2 ^ (g.lowest + k) := by
  induction k generalizing m with
  | zero => exact ⟨_, value_add (.inl rfl) hm⟩
  | succ k ih =>
    by_cases hlarge : 2 ^ g.fraction ≤ m
    · exact ⟨_, value_add (.inr hlarge) hm⟩
    · obtain ⟨rank, hrank⟩ := ih (m := 2 * m) (by rw [pow_succ]; omega)
      have hexponent : g.lowest + (k + 1 : Nat) = g.lowest + k + 1 := by push_cast; ring
      refine ⟨rank, ?_⟩
      rw [hrank, hexponent, zpow_add_one₀ two_ne_zero]
      push_cast
      ring

theorem value_nearest_mono (hg : 0 < g.fraction) {n n' : Nat} (h : n ≤ n') :
    g.value (g.nearest n 1) ≤ g.value (g.nearest n' 1) := by
  have hquotient : (n : ℚ) / (1 : Nat) ≤ n' / (1 : Nat) :=
    div_le_div_of_nonneg_right (Nat.cast_le.mpr h) (Nat.cast_nonneg 1)
  exact (strictMono_value g).monotone (nearest_mono hg one_pos one_pos hquotient)

section
variable {e n : Nat} (hg : 0 < g.fraction) (hlowest : g.lowest ≤ 0)
include hg hlowest

theorem value_nearest_two_pow (e : Nat) : g.value (g.nearest (2 ^ e) 1) = 2 ^ e := by
  obtain ⟨rank, hrank⟩ := g.exists_rank (e - g.lowest).toNat (m := 1) (by simp)
  rw [Int.toNat_of_nonneg (by omega), add_sub_cancel, zpow_natCast, Nat.cast_one, one_mul] at hrank
  rw [nearest_eq_of_value hg one_pos (by rw [hrank]; simp), hrank]

/-- A power of two is never crossed. -/
theorem le_value_nearest (h : 2 ^ e ≤ n) : 2 ^ e ≤ g.value (g.nearest n 1) := by
  rw [← value_nearest_two_pow hg hlowest]
  exact value_nearest_mono hg h

theorem value_nearest_le (h : n ≤ 2 ^ e) : g.value (g.nearest n 1) ≤ 2 ^ e := by
  rw [← value_nearest_two_pow hg hlowest]
  exact value_nearest_mono hg h

end

end

end Grid
end PanelSource
