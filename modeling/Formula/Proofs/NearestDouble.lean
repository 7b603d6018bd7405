import Formula.Double.Nearest
import Formula.Proofs.Digits
import Mathlib.Algebra.Order.Field.Power
import Mathlib.Tactic.Linarith
import Mathlib.Tactic.NormNum

set_option autoImplicit false

namespace Formula.Binary

def toRat (b : Binary) : ℚ := b.significand * 2 ^ b.exponent

theorem power_pos (e : Int) : (0 : ℚ) < 2 ^ e := zpow_pos (by norm_num) e

theorem two_zpow (e : Int) : (2 : ℚ) ^ e = 2 ^ e.toNat / 2 ^ (-e).toNat := by
  rw [← zpow_natCast, ← zpow_natCast, ← zpow_sub₀ (by norm_num), Int.toNat_sub_toNat_neg]

theorem to_rat_nonneg (b : Binary) : 0 ≤ b.toRat :=
  mul_nonneg (Nat.cast_nonneg _) (power_pos b.exponent).le

theorem ratio_value (b : Binary) : (b.ratio.1 : ℚ) / b.ratio.2 = b.toRat := by
  simp only [ratio, two_pow_eq, toRat]
  push_cast
  rw [mul_div_assoc, ← two_zpow]

theorem ratio_den_pos (b : Binary) : 0 < b.ratio.2 := Nat.pow_pos (by omega)

theorem scaled_value (num den : Nat) (e : Int) :
    ((scaled num den e).1 : ℚ) / (scaled num den e).2 = num / den / 2 ^ e := by
  simp only [scaled, two_pow_eq]
  push_cast
  rw [two_zpow, mul_div_mul_comm, div_div_eq_mul_div, mul_div_assoc]

theorem scaled_den_pos (num : Nat) {den : Nat} (positive : 0 < den) (e : Int) :
    0 < (scaled num den e).2 := Nat.mul_pos positive (Nat.pow_pos (by omega))

theorem log_quotient_le {num den : Nat} (some : num ≠ 0) (positive : 0 < den) :
    (2 : ℚ) ^ ((Nat.log2 num : Int) - Nat.log2 den - 1) ≤ num / den := by
  have low : ((2 : Nat) ^ Nat.log2 num : ℚ) ≤ num := by exact_mod_cast Nat.log2_self_le some
  have high : (den : ℚ) ≤ (2 : Nat) ^ (Nat.log2 den + 1) := by
    exact_mod_cast Nat.lt_log2_self.le
  have split : (2 : ℚ) ^ ((Nat.log2 num : Int) - Nat.log2 den - 1) =
      (2 : Nat) ^ Nat.log2 num / (2 : Nat) ^ (Nat.log2 den + 1) := by
    rw [sub_sub, zpow_sub₀ (by norm_num), zpow_natCast]
    norm_cast
  rw [split]
  exact div_le_div₀ (Nat.cast_nonneg num) low (Nat.cast_pos.mpr positive) high

theorem enough_digits {num den : Nat} (positive : 0 < den) {g : Int}
    (more : ¬ (scaled num den g).1 < (scaled num den g).2 * twoPow 52) :
    2 ^ 52 * 2 ^ g ≤ (num : ℚ) / den := by
  have enough : ((scaled num den g).2 : ℚ) * 2 ^ 52 ≤ (scaled num den g).1 := by
    exact_mod_cast not_lt.mp more
  rw [← le_div_iff₀ (power_pos g), ← scaled_value,
    le_div_iff₀ (Nat.cast_pos.mpr (scaled_den_pos num positive g)), mul_comm]
  exact enough

theorem den_pos {num den : Nat} (quarter : (1 : ℚ) / 4 ≤ num / den) : 0 < den := by
  by_contra none
  rw [Nat.eq_zero_of_not_pos none, Nat.cast_zero, div_zero] at quarter
  norm_num at quarter

theorem exponent_for_le {num den : Nat} (quarter : (1 : ℚ) / 4 ≤ num / den) :
    2 ^ 52 * 2 ^ exponentFor num den ≤ (num : ℚ) / den := by
  have positive := den_pos quarter
  have some : num ≠ 0 := by
    rintro rfl
    rw [Nat.cast_zero, zero_div] at quarter
    norm_num at quarter
  have logs : Nat.log2 den < Nat.log2 num + 3 := by
    rw [le_div_iff₀ (Nat.cast_pos.mpr positive)] at quarter
    have times : (den : ℚ) ≤ 4 * num := by linarith
    have whole : den ≤ 4 * num := by exact_mod_cast times
    have above := Nat.lt_log2_self (n := num)
    rw [Nat.log2_lt positive.ne', show Nat.log2 num + 3 = Nat.log2 num + 1 + 2 by omega,
      Nat.pow_add 2 (Nat.log2 num + 1)]
    omega
  obtain ⟨g, guess⟩ : ∃ g : Int, g = Nat.log2 num - Nat.log2 den - (precision - 1) := ⟨_, rfl⟩
  have bits : g = Nat.log2 num - Nat.log2 den - 52 := by rw [guess]; rfl
  rw [exponentFor]
  dsimp only
  rw [← guess]
  -- The guess is right or one too large, and the least exponent is far below both.
  by_cases short : (scaled num den g).1 < (scaled num den g).2 * twoPow (precision - 1)
  · rw [if_pos short, if_neg (by rw [leastExponent]; omega)]
    have below := log_quotient_le some positive
    rw [← zpow_natCast, ← zpow_add₀ (by norm_num)]
    rwa [show ((52 : Nat) : Int) + (g - 1) = Nat.log2 num - Nat.log2 den - 1 by omega]
  · rw [if_neg short, if_neg (by rw [leastExponent]; omega)]
    exact enough_digits positive short

theorem nearest_integer_twice (num : Nat) {den : Nat} (positive : 0 < den) :
    2 * num ≤ (2 * nearestInteger num den + 1) * den := by
  have split := Nat.div_add_mod num den
  have small := Nat.mod_lt num positive
  rw [Nat.mul_comm] at split
  rw [nearestInteger]
  by_cases near : (decide (2 * (num % den) < den) ||
      (2 * (num % den) == den && num / den % 2 == 0)) = true
  · rw [if_pos near, Nat.add_mul, Nat.mul_assoc]
    simp only [Bool.or_eq_true, decide_eq_true_eq, Bool.and_eq_true, beq_iff_eq] at near
    omega
  · rw [if_neg near, Nat.mul_add, Nat.add_mul, Nat.add_mul, Nat.mul_assoc]
    omega

theorem nearest_integer_ge (num : Nat) {den : Nat} (positive : 0 < den) :
    (num : ℚ) / den ≤ nearestInteger num den + 1 / 2 := by
  have twice : (2 : ℚ) * num ≤ (2 * nearestInteger num den + 1) * den := by
    exact_mod_cast nearest_integer_twice num positive
  rw [div_le_iff₀ (Nat.cast_pos.mpr positive)]
  linarith

theorem nearest_ge {num den : Nat} (quarter : (1 : ℚ) / 4 ≤ num / den) :
    (num : ℚ) / den * (1 - 1 / 2 ^ 53) ≤ (nearest num den).toRat := by
  have positive := den_pos quarter
  have digits := exponent_for_le quarter
  have unit := power_pos (exponentFor num den)
  have rounded := nearest_integer_ge (scaled num den (exponentFor num den)).1
    (scaled_den_pos num positive (exponentFor num den))
  rw [scaled_value, div_le_iff₀ unit] at rounded
  change _ ≤ (nearestInteger (scaled num den (exponentFor num den)).1
    (scaled num den (exponentFor num den)).2 : ℚ) * 2 ^ exponentFor num den
  linarith

theorem nearest_integer_twice_le (num : Nat) {den : Nat} (positive : 0 < den) :
    2 * (nearestInteger num den * den) ≤ 2 * num + den := by
  have split := Nat.div_add_mod num den
  have small := Nat.mod_lt num positive
  rw [Nat.mul_comm] at split
  rw [nearestInteger]
  by_cases near : (decide (2 * (num % den) < den) ||
      (2 * (num % den) == den && num / den % 2 == 0)) = true
  · rw [if_pos near]
    omega
  · rw [if_neg near, Nat.add_mul]
    simp only [Bool.or_eq_true, decide_eq_true_eq, not_or] at near
    omega

theorem nearest_integer_le (num : Nat) {den : Nat} (positive : 0 < den) :
    (nearestInteger num den : ℚ) ≤ num / den + 1 / 2 := by
  have twice : (2 : ℚ) * (nearestInteger num den * den) ≤ 2 * num + den := by
    exact_mod_cast nearest_integer_twice_le num positive
  have some : (0 : ℚ) < den := Nat.cast_pos.mpr positive
  rw [← sub_le_iff_le_add, le_div_iff₀ some]
  linarith

theorem nearest_le {num den : Nat} (quarter : (1 : ℚ) / 4 ≤ num / den) :
    (nearest num den).toRat ≤ (num : ℚ) / den * (1 + 1 / 2 ^ 53) := by
  have positive := den_pos quarter
  have digits := exponent_for_le quarter
  have unit := power_pos (exponentFor num den)
  have rounded := nearest_integer_le (scaled num den (exponentFor num den)).1
    (scaled_den_pos num positive (exponentFor num den))
  rw [scaled_value, ← sub_le_iff_le_add, le_div_iff₀ unit] at rounded
  change (nearestInteger (scaled num den (exponentFor num den)).1
    (scaled num den (exponentFor num den)).2 : ℚ) * 2 ^ exponentFor num den ≤ _
  linarith

structure Next (b : Binary) (q : ℚ) : Prop where
  low : q * (1 - 1 / 2 ^ 53) ≤ b.toRat
  high : b.toRat ≤ q * (1 + 1 / 2 ^ 53)

theorem nearest_next {num den : Nat} (quarter : (1 : ℚ) / 4 ≤ num / den) :
    (nearest num den).Next (num / den) := ⟨nearest_ge quarter, nearest_le quarter⟩

theorem mul_ratio (a b : Binary) : ((a.ratio.1 * b.ratio.1 : Nat) : ℚ) /
    (a.ratio.2 * b.ratio.2 : Nat) = a.toRat * b.toRat := by
  rw [Nat.cast_mul, Nat.cast_mul, mul_div_mul_comm, ratio_value, ratio_value]

theorem add_ratio (a b : Binary) : ((a.ratio.1 * b.ratio.2 + b.ratio.1 * a.ratio.2 : Nat) : ℚ) /
    (a.ratio.2 * b.ratio.2 : Nat) = a.toRat + b.toRat := by
  have left : (a.ratio.2 : ℚ) ≠ 0 := Nat.cast_ne_zero.mpr (ratio_den_pos a).ne'
  have right : (b.ratio.2 : ℚ) ≠ 0 := Nat.cast_ne_zero.mpr (ratio_den_pos b).ne'
  rw [Nat.cast_mul, Nat.cast_add, Nat.cast_mul, Nat.cast_mul, ← ratio_value a, ← ratio_value b,
    div_add_div _ _ left right, mul_comm (a.ratio.2 : ℚ) b.ratio.1]

theorem mul_next {a b : Binary} (quarter : 1 / 4 ≤ a.toRat * b.toRat) :
    (a.mul b).Next (a.toRat * b.toRat) := by
  rw [← mul_ratio] at quarter ⊢
  exact nearest_next quarter

theorem add_next {a b : Binary} (quarter : 1 / 4 ≤ a.toRat + b.toRat) :
    (a.add b).Next (a.toRat + b.toRat) := by
  rw [← add_ratio] at quarter ⊢
  exact nearest_next quarter

theorem less_iff (a b : Binary) : a.less b = true ↔ a.toRat < b.toRat := by
  rw [less, decide_eq_true_iff, ← ratio_value a, ← ratio_value b,
    div_lt_div_iff₀ (Nat.cast_pos.mpr (ratio_den_pos a)) (Nat.cast_pos.mpr (ratio_den_pos b))]
  exact_mod_cast Iff.rfl

end Formula.Binary
