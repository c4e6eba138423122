import PanelSource.Proofs.Number.Rounding

/-! # The shortest digits round to their double

The search stops at a decimal in the interval of the rank, or behind seventeen digits, where the
nearest decimal is closer than any end. -/
namespace PanelSource

/-- The exponent is no greater than that of the rational. -/
theorem zpow_decimalExponent_le {n d : Nat} (hn : 0 < n) (hd : 0 < d) :
    (10 : ℚ) ^ decimalExponent n d ≤ n / d := by
  have hd' : (0 : ℚ) < d := Nat.cast_pos.mpr hd
  simp only [decimalExponent, Nat.pow_eq, Int.ofNat_eq_natCast]
  generalize he : ((Nat.toDigits 10 n).length : ℤ) - ((Nat.toDigits 10 d).length : ℤ) = e
  split
  · rename_i hle
    rw [zpow_eq_div (by norm_num) e, div_le_div_iff₀ (by positivity) hd']
    exact_mod_cast (Nat.mul_comm _ _).trans_le hle
  · have hlength : 0 < (Nat.toDigits 10 n).length := Nat.length_toDigits_pos
    have hgreat : d < 10 ^ (Nat.toDigits 10 d).length :=
      (Nat.length_toDigits_le_iff (by decide) Nat.length_toDigits_pos).mp le_rfl
    have hleast : 10 ^ ((Nat.toDigits 10 n).length - 1) ≤ n := by
      rcases Nat.eq_or_lt_of_le hlength with hone | hmore
      · rw [← hone]
        exact hn
      · rw [← not_lt, ← Nat.length_toDigits_le_iff (by decide) (by omega)]
        omega
    have hexponent : e - 1 =
        (((Nat.toDigits 10 n).length - 1 : Nat) : ℤ) - ((Nat.toDigits 10 d).length : ℤ) := by
      omega
    rw [hexponent, zpow_sub₀ (by norm_num), zpow_natCast, zpow_natCast]
    exact div_le_div₀ (Nat.cast_nonneg n) (by exact_mod_cast hleast) hd'
      (by exact_mod_cast hgreat.le)

namespace Decimal

theorem value_stripZeros (fuel : Nat) (x : Decimal) : (stripZeros fuel x).value = x.value := by
  induction fuel generalizing x with
  | zero => rfl
  | succ fuel ih =>
    rw [stripZeros]
    split
    · rename_i h
      have hdigits : x.digits = 10 * (x.digits / 10) := by omega
      rw [ih, value, value, zpow_add_one₀ (by norm_num)]
      conv_rhs => rw [hdigits]
      push_cast
      ring
    · rfl

/-- The quotient in units of a power of ten. -/
theorem ratio_eq_scaled (n : Nat) {d : Nat} (hd : 0 < d) (k : ℤ) :
    (n : ℚ) / d = (n * 10 ^ (-k).toNat : Nat) / (d * 10 ^ k.toNat : Nat) * 10 ^ k := by
  have hd' : (d : ℚ) ≠ 0 := Nat.cast_ne_zero.mpr hd.ne'
  rw [zpow_eq_div (by norm_num) k]
  push_cast
  field_simp

theorem cast_div_eq_add (num : Nat) {den : Nat} (hden : 0 < den) :
    (num : ℚ) / den = (num / den : Nat) + (num % den : Nat) / (den : ℚ) := by
  have hden' : (den : ℚ) ≠ 0 := Nat.cast_ne_zero.mpr hden.ne'
  have hsum : (num : ℚ) = den * (num / den : Nat) + (num % den : Nat) := by
    exact_mod_cast (Nat.div_add_mod num den).symm
  field_simp
  linarith

/-- The nearer neighbour is at most half a unit away. -/
theorem neighbours_near (n : Nat) {d : Nat} (hd : 0 < d) (k : ℤ) :
    |(neighbours n d k).1.value - n / d| ≤ 10 ^ k / 2 := by
  have hpow : (0 : ℚ) < 10 ^ k := by positivity
  rw [ratio_eq_scaled n hd k]
  simp only [neighbours, Nat.pow_eq]
  have hden : 0 < d * 10 ^ k.toNat := Nat.mul_pos hd (Nat.pow_pos (by decide))
  generalize n * 10 ^ (-k).toNat = num
  generalize d * 10 ^ k.toNat = den at hden ⊢
  have hden' : (0 : ℚ) < den := Nat.cast_pos.mpr hden
  rw [cast_div_eq_add num hden]
  split
  · rename_i hbelow
    have hhalf : ((num % den : Nat) : ℚ) / den ≤ 1 / 2 := by
      rw [div_le_div_iff₀ hden' two_pos]
      exact_mod_cast (show num % den * 2 ≤ 1 * den by omega)
    have hdiff : (⟨num / den, k⟩ : Decimal).value -
        ((num / den : Nat) + (num % den : Nat) / (den : ℚ)) * 10 ^ k =
          -((num % den : Nat) / (den : ℚ) * 10 ^ k) := by
      rw [value]
      ring
    rw [hdiff, abs_neg, abs_of_nonneg (by positivity)]
    nlinarith
  · rename_i habove
    have hhalf : 1 / 2 ≤ ((num % den : Nat) : ℚ) / den := by
      rw [div_le_div_iff₀ two_pos hden']
      exact_mod_cast (show 1 * den ≤ num % den * 2 by omega)
    have hrest : ((num % den : Nat) : ℚ) / den < 1 := by
      rw [div_lt_one hden']
      exact_mod_cast Nat.mod_lt num hden
    have hdiff : (⟨num / den + 1, k⟩ : Decimal).value -
        ((num / den : Nat) + (num % den : Nat) / (den : ℚ)) * 10 ^ k =
          (1 - (num % den : Nat) / (den : ℚ)) * 10 ^ k := by
      rw [value]
      push_cast
      ring
    rw [hdiff, abs_of_nonneg (mul_nonneg (by linarith) hpow.le)]
    nlinarith

/-- The search ends in the interval, or at the nearer neighbour among the last multiples. -/
theorem search_spec (i : RoundingInterval) (n : Nat) {d : Nat} (hd : 0 < d) (fuel : Nat) (k : ℤ) :
    i.contains (search i n d fuel k) = true ∨
      |(search i n d fuel k).value - n / d| ≤ 10 ^ (k - fuel) / 2 := by
  induction fuel generalizing k with
  | zero =>
    rw [search]
    simpa using Or.inr (neighbours_near n hd k)
  | succ fuel ih =>
    simp only [search]
    split
    · rename_i h
      exact .inl h
    · split
      · rename_i h
        exact .inl h
      · have hk : k - (fuel + 1 : Nat) = k - 1 - fuel := by push_cast; ring
        rw [hk]
        exact ih (k - 1)

end Decimal

namespace RoundingInterval

section
variable (g : Grid) {rank : Nat}

theorem mantissa_lt (rank : Nat) : g.mantissa rank < 2 ^ (g.fraction + 1) := by
  unfold Grid.mantissa
  have hmod := Nat.mod_lt rank (show 0 < Nat.pow 2 g.fraction from Nat.pow_pos (by decide))
  rw [pow_succ, ← Nat.pow_eq]
  split <;> omega

theorem mantissa_pos (h : 0 < rank) : 0 < g.mantissa rank := by
  unfold Grid.mantissa
  have hfraction : 0 < Nat.pow 2 g.fraction := Nat.pow_pos (by decide)
  split <;> omega

theorem mantissa_zero : g.mantissa 0 = 0 := if_pos (Nat.pow_pos (by decide))

theorem lower_zero : (ofRank g 0).lower = 0 := by
  rw [lower_eq, mantissa_zero, Nat.mul_zero, Nat.zero_sub, Nat.cast_zero, zero_mul]

theorem holds_zero : (ofRank g 0).Holds 0 := by
  rw [Holds, if_pos (closed_iff.mpr rfl), lower_zero, upper_eq]
  exact ⟨le_rfl, by positivity⟩

theorem value_eq_quarters (rank : Nat) :
    g.value rank = 4 * g.mantissa rank * 2 ^ (g.exponent rank - 2) := by
  rw [Grid.value, zpow_sub₀ two_ne_zero]
  norm_num
  ring

/-- Both ends are at least a quarter of a step away. -/
theorem lower_le_value_sub (hm : 0 < g.mantissa rank) :
    (ofRank g rank).lower ≤ g.value rank - 2 ^ (g.exponent rank - 2) := by
  have hdown : 1 ≤ down g rank := by
    unfold down
    split <;> decide
  have hends : ((4 * g.mantissa rank - down g rank : Nat) : ℚ) ≤ 4 * g.mantissa rank - 1 := by
    rw [le_sub_iff_add_le]
    exact_mod_cast (show 4 * g.mantissa rank - down g rank + 1 ≤ 4 * g.mantissa rank by omega)
  rw [lower_eq]
  calc (4 * g.mantissa rank - down g rank : Nat) * (2 : ℚ) ^ (g.exponent rank - 2)
      ≤ (4 * g.mantissa rank - 1) * 2 ^ (g.exponent rank - 2) :=
        mul_le_mul_of_nonneg_right hends (by positivity)
    _ = g.value rank - 2 ^ (g.exponent rank - 2) := by rw [value_eq_quarters]; ring

theorem value_add_le_upper (rank : Nat) :
    g.value rank + 2 ^ (g.exponent rank - 2) ≤ (ofRank g rank).upper := by
  have hstep : (0 : ℚ) < 2 ^ (g.exponent rank - 2) := by positivity
  rw [upper_eq, value_eq_quarters]
  push_cast
  linarith

end

/-- Behind seventeen digits half a unit is less than a quarter of a step. -/
theorem holds_of_near {rank : Nat} (hrank : 0 < rank) {k : ℤ} {q : ℚ}
    (hk : (10 : ℚ) ^ k ≤ Grid.double.value rank)
    (hq : |q - Grid.double.value rank| ≤ 10 ^ (k - 17) / 2) : (ofRank .double rank).Holds q := by
  have hstep : (0 : ℚ) < 2 ^ (Grid.double.exponent rank - 2) := by positivity
  have hmantissa : (Grid.double.mantissa rank : ℚ) < 2 ^ 53 := by
    exact_mod_cast mantissa_lt .double rank
  have hunit : (10 : ℚ) ^ (k - 17) * 10 ^ 17 ≤ Grid.double.value rank := by
    rw [zpow_sub₀ (by norm_num)]
    norm_num
    exact hk
  have hsmall : (10 : ℚ) ^ (k - 17) / 2 < 2 ^ (Grid.double.exponent rank - 2) := by
    rw [value_eq_quarters] at hunit
    nlinarith
  have hlower := lower_le_value_sub .double (mantissa_pos .double hrank)
  have hupper := value_add_le_upper .double rank
  obtain ⟨hlow, hhigh⟩ := abs_le.mp hq
  exact holds_of_lt (by linarith) (by linarith)

/-- The digits written for a double round to it. -/
theorem holds_shortest (rank : Nat) :
    (ofRank .double rank).Holds (Decimal.shortest .double rank).value := by
  unfold Decimal.shortest
  split
  · rename_i hzero
    subst hzero
    have hvalue : (⟨0, 0⟩ : Decimal).value = 0 := by simp [Decimal.value]
    rw [hvalue]
    exact holds_zero .double
  · rename_i hrank
    have hd := Grid.double.ratio_snd_pos rank
    have hn : 0 < (Grid.double.ratio rank).1 :=
      Nat.mul_pos (mantissa_pos .double (by omega)) (Nat.pow_pos (by decide))
    simp only [Decimal.value_stripZeros]
    rcases Decimal.search_spec (ofRank .double rank) (Grid.double.ratio rank).1 hd 17
      (decimalExponent (Grid.double.ratio rank).1 (Grid.double.ratio rank).2) with hin | hnear
    · exact (contains_iff den_pos).mp hin
    · rw [Grid.ratio_eq] at hnear
      have hpower := zpow_decimalExponent_le hn hd
      rw [Grid.ratio_eq] at hpower
      exact holds_of_near (by omega) hpower (by exact_mod_cast hnear)

end RoundingInterval
end PanelSource
