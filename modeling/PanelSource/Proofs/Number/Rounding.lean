import Mathlib.Algebra.Order.Field.Power
import Mathlib.Tactic.FieldSimp
import Mathlib.Tactic.Linarith
import Mathlib.Tactic.Positivity
import Mathlib.Tactic.Ring
import PanelSource.Number.Shortest

/-! # The rationals that round to a point

The intervals of neighbouring ranks meet at one end, which belongs to the even one of them. So no
rational is in the intervals of two ranks. -/
namespace PanelSource

theorem zpow_eq_div {b : ℚ} (hb : b ≠ 0) (k : ℤ) :
    b ^ k = b ^ k.toNat / b ^ (-k).toNat := by
  rw [← zpow_natCast, ← zpow_natCast, ← zpow_sub₀ hb]
  congr 1
  omega

namespace Decimal

def value (x : Decimal) : ℚ := x.digits * 10 ^ x.exponent

end Decimal

namespace Grid

/-- The point with a rank. -/
def value (g : Grid) (rank : Nat) : ℚ := g.mantissa rank * 2 ^ g.exponent rank

theorem ratio_eq (g : Grid) (rank : Nat) :
    ((g.ratio rank).1 : ℚ) / (g.ratio rank).2 = g.value rank := by
  simp only [ratio, value, Nat.pow_eq, Nat.cast_mul, Nat.cast_pow, Nat.cast_ofNat,
    zpow_eq_div two_ne_zero (g.exponent rank), mul_div_assoc]

theorem ratio_snd_pos (g : Grid) (rank : Nat) : 0 < (g.ratio rank).2 :=
  Nat.pow_pos (by decide)

end Grid

namespace RoundingInterval

def lower (i : RoundingInterval) : ℚ := i.low / i.den

def upper (i : RoundingInterval) : ℚ := i.high / i.den

def Holds (i : RoundingInterval) (q : ℚ) : Prop :=
  if i.closed = true then i.lower ≤ q ∧ q ≤ i.upper else i.lower < q ∧ q < i.upper

theorem Holds.le {i : RoundingInterval} {q : ℚ} (h : i.Holds q) :
    i.lower ≤ q ∧ q ≤ i.upper := by
  unfold Holds at h
  split at h
  · exact h
  · exact ⟨h.1.le, h.2.le⟩

theorem holds_of_lt {i : RoundingInterval} {q : ℚ} (hlower : i.lower < q) (hupper : q < i.upper) :
    i.Holds q := by
  unfold Holds
  split
  · exact ⟨hlower.le, hupper.le⟩
  · exact ⟨hlower, hupper⟩

theorem contains_iff {i : RoundingInterval} (hden : 0 < i.den) {x : Decimal} :
    i.contains x = true ↔ i.Holds x.value := by
  have hd : (0 : ℚ) < i.den := Nat.cast_pos.mpr hden
  have hs : (0 : ℚ) < 10 ^ (-x.exponent).toNat := by positivity
  have hvalue : x.value = x.digits * 10 ^ x.exponent.toNat / 10 ^ (-x.exponent).toNat := by
    rw [Decimal.value, zpow_eq_div (by norm_num), mul_div_assoc]
  have hle (a : Nat) : a * 10 ^ (-x.exponent).toNat ≤ x.digits * 10 ^ x.exponent.toNat * i.den ↔
      (a : ℚ) / i.den ≤ x.value := by
    rw [hvalue, div_le_div_iff₀ hd hs]
    exact_mod_cast Iff.rfl
  have hge (a : Nat) : x.digits * 10 ^ x.exponent.toNat * i.den ≤ a * 10 ^ (-x.exponent).toNat ↔
      x.value ≤ (a : ℚ) / i.den := by
    rw [hvalue, div_le_div_iff₀ hs hd]
    exact_mod_cast Iff.rfl
  simp only [contains, Holds, lower, upper, Nat.pow_eq]
  split
  · rw [Bool.and_eq_true, decide_eq_true_eq, decide_eq_true_eq, hle, hge]
  · rw [Bool.and_eq_true, decide_eq_true_eq, decide_eq_true_eq, ← not_le, ← not_le, hge, hle,
      not_le, not_le]

section
variable {g : Grid} {rank : Nat}

theorem den_pos : 0 < (ofRank g rank).den := Nat.pow_pos (by decide)

theorem closed_iff : (ofRank g rank).closed = true ↔ rank % 2 = 0 := beq_iff_eq

/-- In quarters of a step, how far the lower end is away. -/
def down (g : Grid) (rank : Nat) : Nat :=
  if g.mantissa rank = Nat.pow 2 g.fraction ∧ g.lowest < g.exponent rank then 1 else 2

theorem lower_eq : (ofRank g rank).lower =
    (4 * g.mantissa rank - down g rank : Nat) * (2 : ℚ) ^ (g.exponent rank - 2) := by
  simp only [lower, ofRank, down, Nat.pow_eq, Nat.cast_mul, Nat.cast_pow, Nat.cast_ofNat,
    zpow_eq_div two_ne_zero (g.exponent rank - 2), mul_div_assoc]

theorem upper_eq : (ofRank g rank).upper =
    (4 * g.mantissa rank + 2 : Nat) * (2 : ℚ) ^ (g.exponent rank - 2) := by
  simp only [upper, ofRank, Nat.pow_eq, Nat.cast_mul, Nat.cast_pow, Nat.cast_ofNat,
    zpow_eq_div two_ne_zero (g.exponent rank - 2), mul_div_assoc]

theorem lower_lt_upper : (ofRank g rank).lower < (ofRank g rank).upper := by
  rw [lower_eq, upper_eq]
  have hends : 4 * g.mantissa rank - down g rank < 4 * g.mantissa rank + 2 := by omega
  exact mul_lt_mul_of_pos_right (Nat.cast_lt.mpr hends) (by positivity)

/-- The next point is one step on, or the first one of a step twice as wide. -/
theorem succ_cases (g : Grid) (rank : Nat) :
    (g.exponent (rank + 1) = g.exponent rank ∧ g.mantissa (rank + 1) = g.mantissa rank + 1 ∧
        down g (rank + 1) = 2) ∨
      (g.exponent (rank + 1) = g.exponent rank + 1 ∧
        2 * g.mantissa (rank + 1) = g.mantissa rank + 1 ∧ down g (rank + 1) = 1) := by
  unfold down Grid.mantissa Grid.exponent
  generalize hF : Nat.pow 2 g.fraction = F
  have hpos : 0 < F := hF ▸ Nat.pow_pos (by decide)
  rcases Nat.lt_trichotomy (rank + 1) F with hlt | heq | hgt
  · have hrank : rank < F := by omega
    simp only [hlt, hrank, if_true]
    exact .inl ⟨trivial, trivial, if_neg (by omega)⟩
  · have hrank : rank < F := by omega
    have hnext : ¬rank + 1 < F := by omega
    have hq : (rank + 1) / F = 1 := by rw [heq, Nat.div_self hpos]
    have hr : (rank + 1) % F = 0 := by rw [heq, Nat.mod_self]
    simp only [hrank, hnext, if_true, if_false, hq, hr]
    exact .inl ⟨by omega, by omega, if_neg (by omega)⟩
  · have hrank : ¬rank < F := by omega
    have hnext : ¬rank + 1 < F := by omega
    have hone : 1 ≤ rank / F := (Nat.one_le_div_iff hpos).mpr (by omega)
    have hsum := Nat.div_add_mod rank F
    have hmod := Nat.mod_lt rank hpos
    simp only [hrank, hnext, if_false]
    by_cases hlast : rank % F + 1 = F
    · have hsucc : (rank + 1) / F = rank / F + 1 ∧ (rank + 1) % F = 0 :=
        (Nat.div_mod_unique hpos).mpr ⟨by rw [Nat.mul_add]; omega, hpos⟩
      rw [hsucc.1, hsucc.2]
      exact .inr ⟨by omega, by omega, if_pos ⟨rfl, by omega⟩⟩
    · have hsucc : (rank + 1) / F = rank / F ∧ (rank + 1) % F = rank % F + 1 :=
        (Nat.div_mod_unique hpos).mpr ⟨by omega, by omega⟩
      rw [hsucc.1, hsucc.2]
      exact .inl ⟨rfl, by omega, if_neg (by omega)⟩

theorem upper_eq_lower_succ (g : Grid) (rank : Nat) :
    (ofRank g rank).upper = (ofRank g (rank + 1)).lower := by
  rw [upper_eq, lower_eq]
  rcases succ_cases g rank with ⟨he, hm, hd⟩ | ⟨he, hm, hd⟩
  · rw [he, hm, hd]
    congr 2
  · have hends : 4 * g.mantissa rank + 2 = (4 * g.mantissa (rank + 1) - 1) * 2 := by omega
    have hstep : g.exponent rank + 1 - 2 = g.exponent rank - 2 + 1 := by ring
    rw [he, hd, hends, hstep, zpow_add_one₀ two_ne_zero]
    push_cast
    ring

theorem strictMono_lower (g : Grid) : StrictMono fun rank => (ofRank g rank).lower :=
  strictMono_nat_of_lt_succ fun rank => by
    rw [← upper_eq_lower_succ]
    exact lower_lt_upper

theorem not_holds_of_lt {rank' : Nat} {q : ℚ} (hlt : rank < rank')
    (h : (ofRank g rank).Holds q) : ¬(ofRank g rank').Holds q := by
  intro h'
  have hmono := (strictMono_lower g).monotone hlt
  have hmeet : q = (ofRank g rank).upper ∧ q = (ofRank g rank').lower := by
    have hupper := h.le.2
    have hlower := h'.le.1
    rw [upper_eq_lower_succ] at hupper ⊢
    exact ⟨le_antisymm hupper (hmono.trans hlower), le_antisymm (hupper.trans hmono) hlower⟩
  have heven : rank % 2 = 0 := by
    rw [← closed_iff (g := g)]
    by_contra hopen
    rw [Holds, if_neg hopen] at h
    exact absurd h.2 (not_lt.mpr hmeet.1.ge)
  have heven' : rank' % 2 = 0 := by
    rw [← closed_iff (g := g)]
    by_contra hopen
    rw [Holds, if_neg hopen] at h'
    exact absurd h'.1 (not_lt.mpr hmeet.2.le)
  have hnext : rank + 1 = rank' := by
    apply (strictMono_lower g).injective
    simp only
    rw [← upper_eq_lower_succ, ← hmeet.1, ← hmeet.2]
  omega

/-- A rational rounds to one point only. -/
theorem rank_unique {rank' : Nat} {q : ℚ} (h : (ofRank g rank).Holds q)
    (h' : (ofRank g rank').Holds q) : rank = rank' := by
  rcases Nat.lt_trichotomy rank rank' with hlt | heq | hlt
  · exact absurd h' (not_holds_of_lt hlt h)
  · exact heq
  · exact absurd h (not_holds_of_lt hlt h')

end

end RoundingInterval
end PanelSource
