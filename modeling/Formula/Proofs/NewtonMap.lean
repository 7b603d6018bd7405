import Mathlib.Algebra.Order.Ring.Pow
import Mathlib.Data.Real.Basic
import Mathlib.Tactic.FieldSimp
import Mathlib.Tactic.GCongr
import Mathlib.Tactic.Linarith
import Mathlib.Tactic.Positivity
import Mathlib.Tactic.Ring

set_option autoImplicit false

namespace Formula.Newton

section Powers

variable {K : Type} [Field K] [LinearOrder K] [IsStrictOrderedRing K] {h : K}

theorem one_sub_pow (small : h ≤ 1) (k : Nat) : 1 - k * h ≤ (1 - h) ^ k := by
  have bernoulli := one_add_mul_le_pow (a := -h) (by linarith) k
  linarith [show (1 + -h) ^ k = (1 - h) ^ k by ring]

theorem opposite_pow_le_one (above : -1 ≤ h) (below : h ≤ 1) (k : Nat) :
    (1 + h) ^ k * (1 - h) ^ k ≤ 1 := by
  rw [← mul_pow]
  refine pow_le_one₀ (mul_nonneg (by linarith) (by linarith)) ?_
  linarith [mul_self_nonneg h]

theorem one_add_pow_mul_le (nonneg : 0 ≤ h) (small : h ≤ 1) (k : Nat) :
    (1 + h) ^ k * (1 - k * h) ≤ 1 :=
  le_trans (mul_le_mul_of_nonneg_left (one_sub_pow small k) (pow_nonneg (by linarith) k))
    (opposite_pow_le_one (by linarith) small k)

end Powers

-- From `y` times the root to `next` times the root. The quotient by the power of `y` is off by a
-- part of at most `2 * n * u`, and the result by a part of at most `u`.
inductive Step (n : Nat) (u y next : ℝ) : Prop where
  | intro (θ ρ : ℝ) (quotient : |θ| ≤ 2 * (n * u)) (result : |ρ| ≤ u)
      (value : next = y * ((n - 1 + (1 + θ) / y ^ n) / n) * (1 + ρ))

structure Fine (n : Nat) (u : ℝ) : Prop where
  two : 2 ≤ n
  word : (n : ℝ) ≤ 10 ^ 10
  positive : 0 < u
  small : n * u ≤ 1 / 10 ^ 67

namespace Fine

variable {n : Nat} {u : ℝ}

theorem two_le (fine : Fine n u) : (2 : ℝ) ≤ n := by exact_mod_cast fine.two

theorem tiny (fine : Fine n u) : n * u ≤ 1 / 1000 := fine.small.trans (by norm_num)

theorem unit_le (fine : Fine n u) : u ≤ n * u := by
  have more := mul_le_mul_of_nonneg_right fine.two_le fine.positive.le
  linarith [fine.positive]

theorem square_small (fine : Fine n u) : n * (n * u) ≤ 1 / 10 ^ 57 := by
  have product := mul_le_mul fine.word fine.small
    (mul_nonneg (Nat.cast_nonneg n) fine.positive.le) (by norm_num)
  norm_num at product ⊢
  linarith

end Fine

variable {n : Nat} {u y next : ℝ}

theorem degree_le_mean (positive : 0 < y) : n ≤ (n - 1) * y + y / y ^ n := by
  have bernoulli := one_add_mul_le_pow (a := 1 / y - 1)
    (by linarith [one_div_pos.mpr positive]) n
  rw [add_sub_cancel, one_div_pow] at bernoulli
  have scaled := mul_le_mul_of_nonneg_left bernoulli positive.le
  have left : y * (1 + n * (1 / y - 1)) = y + n * (1 - y) := by field_simp
  rw [left, mul_one_div] at scaled
  linarith

theorem step_pos (fine : Fine n u) (positive : 0 < y) (step : Step n u y next) : 0 < next := by
  obtain ⟨θ, ρ, quotient, result, rfl⟩ := step
  have low := neg_le_of_abs_le quotient
  have low' := neg_le_of_abs_le result
  have two := fine.two_le
  have above : 0 < (1 + θ) / y ^ n := div_pos (by linarith [fine.tiny]) (by positivity)
  refine mul_pos (mul_pos positive (div_pos ?_ ?_)) ?_
  · linarith
  · linarith
  · linarith [fine.unit_le, fine.tiny]

theorem share_le_next (fine : Fine n u) {c θ ρ : ℝ} (nonneg : 0 ≤ c) (rounded : |ρ| ≤ u)
    (share : c * n ≤ (n - 1) * y + (1 + θ) * (y / y ^ n)) :
    c * (1 - u) ≤ y * ((n - 1 + (1 + θ) / y ^ n) / n) * (1 + ρ) := by
  have two := fine.two_le
  have low := neg_le_of_abs_le rounded
  have unit : u ≤ 1 := by linarith [fine.unit_le, fine.tiny]
  calc
    c * (1 - u) = c * n / n * (1 - u) := by field_simp
    _ ≤ ((n - 1) * y + (1 + θ) * (y / y ^ n)) / n * (1 + ρ) :=
      mul_le_mul (div_le_div_of_nonneg_right share n.cast_nonneg) (by linarith) (by linarith)
        (div_nonneg (le_trans (mul_nonneg nonneg n.cast_nonneg) share) n.cast_nonneg)
    _ = y * ((n - 1 + (1 + θ) / y ^ n) / n) * (1 + ρ) := by ring

theorem step_ge (fine : Fine n u) (positive : 0 < y) (step : Step n u y next) :
    1 - 3 * (n * u) ≤ next := by
  obtain ⟨θ, ρ, quotient, result, rfl⟩ := step
  have low := neg_le_of_abs_le quotient
  have two := fine.two_le
  have tiny := fine.tiny
  have unit := fine.unit_le
  have unit_pos := fine.positive
  have mean := degree_le_mean (n := n) positive
  have ratio : 0 < y / y ^ n := by positivity
  have share : (1 - 2 * (n * u)) * n ≤ (n - 1) * y + (1 + θ) * (y / y ^ n) := by
    have scaled := mul_le_mul_of_nonneg_left mean (a := 1 - 2 * (n * u)) (by linarith)
    have kept : 0 ≤ (θ + 2 * (n * u)) * (y / y ^ n) := mul_nonneg (by linarith) ratio.le
    have lost : 0 ≤ 2 * (n * u) * ((n - 1) * y) :=
      mul_nonneg (by linarith) (mul_nonneg (by linarith) positive.le)
    linarith
  refine le_trans ?_ (share_le_next fine (by linarith) result share)
  linarith [mul_nonneg (mul_nonneg zero_le_two (unit_pos.le.trans unit)) unit_pos.le]

theorem rounding_pow_le (fine : Fine n u) {ρ : ℝ} (rounded : |ρ| ≤ u) :
    (1 + ρ) ^ n ≤ 1 + 2 * (n * u) := by
  have tiny := fine.tiny
  have unit := fine.unit_le
  have least : 0 ≤ 1 + ρ := by linarith [neg_le_of_abs_le rounded]
  have most : 1 + ρ ≤ 1 + u := by linarith [le_of_abs_le rounded]
  have limit := one_add_pow_mul_le fine.positive.le (by linarith) n
  have room : 1 ≤ (1 + 2 * (n * u)) * (1 - n * u) := by nlinarith [fine.positive]
  exact (pow_le_pow_left₀ least most n).trans
    (le_of_mul_le_mul_right (limit.trans room) (by linarith))

-- The factor by which an iterate changes: `t / n` off one gives the power a factor of about
-- `1 / (1 + t)`.
theorem shrink_pow_le (some : 0 < n) {t : ℝ} (above : -1 < t) (below : t ≤ 1) :
    (1 - t / n) ^ n * (1 + t) ≤ 1 := by
  have one : (1 : ℝ) ≤ n := by exact_mod_cast some
  have low : -1 ≤ t / n := by
    rw [le_div_iff₀ (by linarith)]
    linarith
  have high : t / n ≤ 1 := by
    rw [div_le_iff₀ (by linarith)]
    linarith
  have bernoulli := one_add_mul_le_pow (a := t / n) (by linarith) n
  rw [mul_div_cancel₀ t (by linarith)] at bernoulli
  calc
    (1 - t / n) ^ n * (1 + t) ≤ (1 - t / n) ^ n * (1 + t / n) ^ n :=
      mul_le_mul_of_nonneg_left bernoulli (pow_nonneg (by linarith) n)
    _ = (1 + t / n) ^ n * (1 - t / n) ^ n := mul_comm _ _
    _ ≤ 1 := opposite_pow_le_one low high n

theorem step_pow_le (fine : Fine n u) (near : 3 / 4 ≤ y ^ n) (step : Step n u y next) :
    next ^ n * (2 * y ^ n - 1 - 2 * (n * u)) ≤ (y ^ n) ^ 2 * (1 + 2 * (n * u)) := by
  obtain ⟨θ, ρ, quotient, result, rfl⟩ := step
  have low := neg_le_of_abs_le quotient
  have high := le_of_abs_le quotient
  have tiny := fine.tiny
  have two := fine.two_le
  have rounding := rounding_pow_le fine result
  rw [mul_pow, mul_pow]
  generalize y ^ n = z at near ⊢
  have part : (n - 1 + (1 + θ) / z) / n = 1 - (1 - (1 + θ) / z) / n := by
    field_simp
    ring
  have most : (1 + θ) / z ≤ (1 + 2 * (n * u)) / z := by gcongr
  have bound : (1 + 2 * (n * u)) / z < 2 := by
    rw [div_lt_iff₀ (by linarith)]
    linarith
  have least : 0 ≤ (1 + θ) / z := div_nonneg (by linarith) (by linarith)
  have shrink := shrink_pow_le (n := n) (by have := fine.two; omega)
    (t := 1 - (1 + θ) / z) (by linarith) (by linarith)
  have share : 0 ≤ 1 - (1 - (1 + θ) / z) / n := by
    rw [← part]
    exact div_nonneg (by linarith) (by linarith)
  rw [part]
  generalize 1 - (1 - (1 + θ) / z) / n = w at shrink share ⊢
  have factor : w ^ n * (2 * z - 1 - 2 * (n * u)) ≤ z := by
    have scaled := mul_le_mul_of_nonneg_left shrink (show (0 : ℝ) ≤ z by linarith)
    have product : z * (w ^ n * (1 + (1 - (1 + θ) / z))) = w ^ n * (2 * z - 1 - θ) := by
      field_simp
      ring
    have more : w ^ n * (2 * z - 1 - 2 * (n * u)) ≤ w ^ n * (2 * z - 1 - θ) :=
      mul_le_mul_of_nonneg_left (by linarith) (pow_nonneg share n)
    linarith
  calc
    z * w ^ n * (1 + ρ) ^ n * (2 * z - 1 - 2 * (n * u)) =
        z * (w ^ n * (2 * z - 1 - 2 * (n * u))) * (1 + ρ) ^ n := by ring
    _ ≤ z * z * (1 + 2 * (n * u)) := by
      refine mul_le_mul (mul_le_mul_of_nonneg_left factor (by linarith)) rounding ?_ (by positivity)
      exact pow_nonneg (by linarith [neg_le_of_abs_le result, fine.unit_le]) n
    _ = z ^ 2 * (1 + 2 * (n * u)) := by ring

theorem excess_le (fine : Fine n u) {excess : ℝ} (some : 1 / 10 ^ 50 ≤ excess)
    (low : 1 - 1 / 10 ^ 56 ≤ y ^ n) (high : y ^ n ≤ 1 + excess) (step : Step n u y next) :
    next ^ n ≤ (1 + excess) ^ 2 / (1 + 2 * excess) + 5 * (n * u) * (1 + excess) ^ 2 := by
  have bound := step_pow_le fine (by linarith) step
  have unit := fine.positive
  have least : 0 < n * u := mul_pos (by linarith [fine.two_le]) unit
  have tiny := fine.tiny
  generalize n * u = δ at bound least tiny ⊢
  generalize y ^ n = z at bound low high
  have positive : (0 : ℝ) < excess := by linarith [show (0 : ℝ) < 1 / 10 ^ 50 by norm_num]
  have divisor : 0 < 2 * z - 1 - 2 * δ := by linarith
  have grows : z ^ 2 ≤ (1 + excess) ^ 2 / (1 + 2 * excess) * (2 * z - 1) := by
    have half : 0 ≤ excess * (2 * z - 3 / 2) := mul_nonneg positive.le (by linarith)
    have difference := mul_nonneg (show 0 ≤ excess - (z - 1) by linarith)
      (show 0 ≤ excess + (z - 1) + 2 * excess * (z - 1) by linarith)
    rw [div_mul_eq_mul_div, le_div_iff₀ (by linarith)]
    linarith [show (1 + excess) ^ 2 * (2 * z - 1) - z ^ 2 * (1 + 2 * excess) =
      (excess - (z - 1)) * (excess + (z - 1) + 2 * excess * (z - 1)) by ring]
  have less : (1 + excess) ^ 2 / (1 + 2 * excess) ≤ (1 + excess) ^ 2 :=
    div_le_self (by positivity) (by linarith)
  have nonneg : 0 ≤ (1 + excess) ^ 2 / (1 + 2 * excess) := by positivity
  refine le_of_mul_le_mul_right (bound.trans ?_) divisor
  generalize (1 + excess) ^ 2 / (1 + 2 * excess) = s at grows less nonneg ⊢
  generalize (1 + excess) ^ 2 = t at less ⊢
  have scaled := mul_le_mul_of_nonneg_right grows (show 0 ≤ 1 + 2 * δ by linarith)
  have share : s * (2 * (2 * z - 1) + 2) ≤ t * (5 * (2 * z - 1 - 2 * δ)) :=
    mul_le_mul less (by linarith) (by linarith) (by linarith)
  linarith [mul_le_mul_of_nonneg_left share least.le]

theorem square_eq {excess : ℝ} (nonneg : 0 ≤ excess) :
    (1 + excess) ^ 2 / (1 + 2 * excess) = 1 + excess ^ 2 / (1 + 2 * excess) := by
  field_simp
  ring

theorem halved (fine : Fine n u) {excess : ℝ} (some : 1 / 10 ^ 50 ≤ excess)
    (few : excess ≤ 10 ^ 4) (low : 1 - 1 / 10 ^ 56 ≤ y ^ n) (high : y ^ n ≤ 1 + excess)
    (step : Step n u y next) : next ^ n ≤ 1 + excess / 2 := by
  have bound := excess_le fine some low high step
  have small := fine.small
  have least : 0 ≤ n * u := mul_nonneg n.cast_nonneg fine.positive.le
  have positive : (0 : ℝ) < excess := by linarith [show (0 : ℝ) < 1 / 10 ^ 50 by norm_num]
  have size : (1 + excess) ^ 2 * (1 + 2 * excess) ≤ (1 + 10 ^ 4) ^ 2 * (1 + 2 * 10 ^ 4) := by gcongr
  have errors := mul_le_mul small size (by positivity) (by norm_num)
  have room : excess ^ 2 / (1 + 2 * excess) + 5 * (n * u) * (1 + excess) ^ 2 ≤ excess / 2 := by
    rw [← le_sub_iff_add_le, div_le_iff₀ (by linarith)]
    linarith
  rw [square_eq positive.le] at bound
  linarith

theorem squared (fine : Fine n u) {excess : ℝ} (some : 1 / 10 ^ 20 ≤ excess)
    (few : excess ≤ 1 / 2) (low : 1 - 1 / 10 ^ 56 ≤ y ^ n) (high : y ^ n ≤ 1 + excess)
    (step : Step n u y next) : next ^ n ≤ 1 + excess ^ 2 := by
  have bound := excess_le fine (by linarith) low high step
  have small := fine.small
  have least : 0 ≤ n * u := mul_nonneg n.cast_nonneg fine.positive.le
  have positive : (0 : ℝ) < excess := by linarith [show (0 : ℝ) < 1 / 10 ^ 20 by norm_num]
  have size : (1 + excess) ^ 2 * (1 + 2 * excess) ≤ (1 + 1 / 2) ^ 2 * (1 + 2 * (1 / 2)) := by gcongr
  have errors := mul_le_mul small size (by positivity) (by norm_num)
  have cube : (1 / 10 ^ 20) ^ 3 ≤ excess ^ 3 := by gcongr
  have room : excess ^ 2 / (1 + 2 * excess) + 5 * (n * u) * (1 + excess) ^ 2 ≤ excess ^ 2 := by
    rw [← le_sub_iff_add_le, div_le_iff₀ (by linarith)]
    linarith
  rw [square_eq positive.le] at bound
  linarith

theorem next_le (fine : Fine n u) {excess : ℝ} (some : 1 / 10 ^ 50 ≤ excess)
    (few : excess ^ 2 ≤ u) (low : 1 - 1 / 10 ^ 56 ≤ y ^ n) (high : y ^ n ≤ 1 + excess)
    (step : Step n u y next) (positive : 0 ≤ next) : next ≤ 1 + 6 * u := by
  have bound := excess_le fine some low high step
  have two := fine.two_le
  have unit := mul_le_mul_of_nonneg_right two fine.positive.le
  have least : 0 ≤ n * u := mul_nonneg n.cast_nonneg fine.positive.le
  have nonneg : (0 : ℝ) ≤ excess := by linarith [show (0 : ℝ) ≤ 1 / 10 ^ 50 by norm_num]
  have less : excess ≤ 1 / 30 := by
    refine le_of_sq_le_sq ?_ (by norm_num)
    linarith [fine.tiny]
  have square : excess ^ 2 / (1 + 2 * excess) ≤ u :=
    (div_le_self (by positivity) (by linarith)).trans few
  have size : (1 + excess) ^ 2 ≤ (1 + 1 / 30) ^ 2 := by gcongr
  have errors := mul_le_mul_of_nonneg_left size (mul_nonneg (by norm_num : (0 : ℝ) ≤ 5) least)
  have bernoulli := one_add_mul_le_pow (a := next - 1) (by linarith) n
  rw [add_sub_cancel] at bernoulli
  rw [square_eq nonneg] at bound
  refine le_of_mul_le_mul_left ?_ (show (0 : ℝ) < n by linarith)
  linarith

theorem next_ge (fine : Fine n u) (positive : 0 < y) (low : 9 / 10 ≤ y ^ n)
    (step : Step n u y next) : 1 - 7 / 2 * u ≤ next := by
  obtain ⟨θ, ρ, quotient, result, rfl⟩ := step
  have two := fine.two_le
  have unit := fine.positive
  have tiny : u ≤ 1 / 1000 := fine.unit_le.trans fine.tiny
  have mean := degree_le_mean (n := n) positive
  have ratio : 0 ≤ y / y ^ n := by positivity
  have most : y / y ^ n ≤ 10 / 9 := by
    rw [div_le_iff₀ (by positivity)]
    rcases le_total y 1 with below | above
    · linarith
    · linarith [le_self_pow₀ above (show n ≠ 0 by have := fine.two; omega)]
  have share : (1 - 20 / 9 * u) * n ≤ (n - 1) * y + (1 + θ) * (y / y ^ n) := by
    have lost := mul_nonneg (show 0 ≤ θ + 2 * (n * u) by linarith [neg_le_of_abs_le quotient]) ratio
    have errors := mul_le_mul_of_nonneg_left most
      (show 0 ≤ 2 * (n * u) from mul_nonneg zero_le_two (mul_nonneg n.cast_nonneg unit.le))
    linarith
  refine le_trans ?_ (share_le_next fine (by linarith) result share)
  linarith [mul_nonneg unit.le unit.le]

theorem close {y next : ℝ} (fine : Fine n u) (low : 1 - 7 / 2 * u ≤ y) (high : y ≤ 1 + 6 * u)
    (low' : 1 - 7 / 2 * u ≤ next) (high' : next ≤ 1 + 6 * u) : |next - y| < 10 * u * next := by
  have unit := fine.positive
  have tiny : u ≤ 1 / 1000 := fine.unit_le.trans fine.tiny
  have share := mul_le_mul_of_nonneg_left low' (show 0 ≤ 10 * u by linarith)
  have square : u * u ≤ u * (1 / 1000) := mul_le_mul_of_nonneg_left tiny unit.le
  rw [abs_lt]
  constructor <;> linarith

theorem factor_eq (fine : Fine n u) (a : ℝ) : (n - 1 + a) / n = 1 - (1 - a) / n := by
  have two := fine.two_le
  field_simp
  ring

-- A step that takes off more than twelve units is seen by the test, whatever the rounding.
theorem unseen_le (nonneg : 0 ≤ u) : (1 - 12 * u) * ((1 + 10 * u) * (1 + u)) ≤ 1 := by
  have square := mul_nonneg nonneg nonneg
  have cube := mul_nonneg square nonneg
  linarith

theorem close_to_root (fine : Fine n u) (positive : 0 < y) (step : Step n u y next)
    (stands : |next - y| ≤ 10 * u * next) : |next - 1| ≤ 15 * (n * u) := by
  have least := step_ge fine positive step
  have ahead := step_pos fine positive step
  obtain ⟨θ, ρ, quotient, result, value⟩ := step
  have two := fine.two_le
  have tiny := fine.tiny
  have unit := fine.positive
  have smaller := fine.unit_le
  have root : 0 < y ^ n := by positivity
  have behind : y ≤ next * (1 + 10 * u) := by linarith [neg_le_of_abs_le stands]
  have ratio : 0 ≤ (1 + θ) / y ^ n :=
    div_nonneg (by linarith [neg_le_of_abs_le quotient]) root.le
  have part : 1 - 12 * u ≤ 1 - (1 - (1 + θ) / y ^ n) / n := by
    rw [← factor_eq fine]
    have share : 0 ≤ (n - 1 + (1 + θ) / y ^ n) / n := div_nonneg (by linarith) n.cast_nonneg
    generalize (n - 1 + (1 + θ) / y ^ n) / n = w at value share ⊢
    have grown : next ≤ next * ((1 + 10 * u) * (w * (1 + u))) := by
      have rounded := mul_le_mul_of_nonneg_left
        (show 1 + ρ ≤ 1 + u by linarith [le_of_abs_le result]) share
      calc
        next = y * (w * (1 + ρ)) := by rw [value, mul_assoc]
        _ ≤ next * (1 + 10 * u) * (w * (1 + u)) :=
          mul_le_mul behind rounded (mul_nonneg share (by linarith [neg_le_of_abs_le result]))
            (by positivity)
        _ = next * ((1 + 10 * u) * (w * (1 + u))) := mul_assoc _ _ _
    have one : 1 ≤ (1 + 10 * u) * (w * (1 + u)) :=
      le_of_mul_le_mul_left (by rwa [mul_one]) ahead
    exact le_of_mul_le_mul_right ((unseen_le unit.le).trans (one.trans_eq (by ring)))
      (by positivity : 0 < (1 + 10 * u) * (1 + u))
  have power : y ^ n ≤ 1 + 15 * (n * u) := by
    have taken : (1 - (1 + θ) / y ^ n) / n ≤ 12 * u := by linarith
    rw [div_le_iff₀ (by linarith)] at taken
    have quotient_ge : 1 - 12 * (n * u) ≤ (1 + θ) / y ^ n := by linarith
    rw [le_div_iff₀ root] at quotient_ge
    have square : n * u * (n * u) ≤ n * u * (1 / 1000) :=
      mul_le_mul_of_nonneg_left tiny (unit.le.trans smaller)
    refine le_of_mul_le_mul_left ?_ (show 0 < 1 - 12 * (n * u) by linarith)
    linarith [le_of_abs_le quotient]
  have bernoulli := one_add_mul_le_pow (a := y - 1) (by linarith) n
  rw [add_sub_cancel] at bernoulli
  have most : y ≤ 1 + 15 * u := by
    refine le_of_mul_le_mul_left ?_ (show (0 : ℝ) < n by linarith)
    linarith
  have last : next * (1 - 10 * u) ≤ 1 + 15 * u := by linarith [le_of_abs_le stands]
  have bound : next ≤ 1 + 30 * u := by
    have square : u * u ≤ u * (1 / 1000) :=
      mul_le_mul_of_nonneg_left (smaller.trans tiny) unit.le
    refine le_of_mul_le_mul_right (last.trans ?_) (show 0 < 1 - 10 * u by linarith)
    linarith
  have double := mul_le_mul_of_nonneg_right two unit.le
  rw [abs_le]
  constructor <;> linarith

theorem far_le (fine : Fine n u) (positive : 0 < y) (far : 10 ^ 4 ≤ y ^ n)
    (step : Step n u y next) : next ≤ y * ((n - 1) / n) * (1 + 3 / 10 ^ 4 / n) := by
  obtain ⟨θ, ρ, quotient, result, rfl⟩ := step
  have two := fine.two_le
  have tiny := fine.tiny
  have high := le_of_abs_le result
  have part : (1 + θ) / y ^ n ≤ 11 / 10 ^ 5 := by
    rw [div_le_iff₀ (by positivity)]
    linarith [le_of_abs_le quotient]
  have half : (1 : ℝ) / 2 ≤ (n - 1) / n := by
    rw [div_le_div_iff₀ zero_lt_two (by linarith)]
    linarith
  have grown : n - 1 + (1 + θ) / y ^ n ≤ (n - 1) * (1 + 22 / 10 ^ 5 / n) := by
    linarith [show (n - 1) * (1 + 22 / 10 ^ 5 / (n : ℝ)) =
      n - 1 + 22 / 10 ^ 5 * ((n - 1) / n) by ring]
  have unit : u ≤ 35 / 10 ^ 6 / n := by
    rw [le_div_iff₀ (by linarith), mul_comm]
    exact fine.small.trans (by norm_num)
  have share : 22 / 10 ^ 5 / (n : ℝ) ≤ 1 := by
    rw [div_le_one (by linarith)]
    linarith
  have factor : (1 + 22 / 10 ^ 5 / n) * (1 + ρ) ≤ 1 + 3 / 10 ^ 4 / (n : ℝ) := by
    have nonneg : 0 ≤ 22 / 10 ^ 5 / (n : ℝ) := by positivity
    have rounded := mul_le_mul_of_nonneg_left high nonneg
    have small := mul_le_mul_of_nonneg_right share fine.positive.le
    have sum : 22 / 10 ^ 5 / (n : ℝ) + 2 * (35 / 10 ^ 6 / n) ≤ 3 / 10 ^ 4 / n := by
      rw [← mul_div_assoc, ← add_div]
      exact div_le_div_of_nonneg_right (by norm_num) n.cast_nonneg
    linarith
  calc
    y * ((n - 1 + (1 + θ) / y ^ n) / n) * (1 + ρ) ≤
        y * ((n - 1) * (1 + 22 / 10 ^ 5 / n) / n) * (1 + ρ) := by
      have least : 0 ≤ 1 + ρ := by linarith [neg_le_of_abs_le result, fine.unit_le]
      gcongr
    _ = y * ((n - 1) / n) * ((1 + 22 / 10 ^ 5 / n) * (1 + ρ)) := by ring
    _ ≤ y * ((n - 1) / n) * (1 + 3 / 10 ^ 4 / n) :=
      mul_le_mul_of_nonneg_left factor (mul_nonneg positive.le (by linarith))

theorem far_ge (fine : Fine n u) (positive : 0 < y) (step : Step n u y next) :
    y * ((n - 1) / n) * (1 - u) ≤ next := by
  obtain ⟨θ, ρ, quotient, result, rfl⟩ := step
  have two := fine.two_le
  have tiny := fine.tiny
  have ratio : 0 ≤ (1 + θ) / y ^ n :=
    div_nonneg (by linarith [neg_le_of_abs_le quotient]) (by positivity)
  have share : ((n : ℝ) - 1) / n ≤ (n - 1 + (1 + θ) / y ^ n) / n :=
    div_le_div_of_nonneg_right (by linarith) n.cast_nonneg
  have least : 0 ≤ ((n : ℝ) - 1) / n := div_nonneg (by linarith) n.cast_nonneg
  exact mul_le_mul (mul_le_mul_of_nonneg_left share positive.le)
    (by linarith [neg_le_of_abs_le result]) (by linarith [fine.unit_le])
    (mul_nonneg positive.le (least.trans share))

theorem still_moves (fine : Fine n u) (positive : 0 < y) (above : 2 ≤ y ^ n)
    (step : Step n u y next) : 10 * u * next < y - next := by
  obtain ⟨θ, ρ, quotient, result, rfl⟩ := step
  have two := fine.two_le
  have tiny := fine.tiny
  have unit := fine.positive
  have ratio : 0 ≤ (1 + θ) / y ^ n :=
    div_nonneg (by linarith [neg_le_of_abs_le quotient]) (by positivity)
  have part : (1 + θ) / y ^ n ≤ 6 / 10 := by
    rw [div_le_iff₀ (by positivity)]
    linarith [le_of_abs_le quotient]
  have taken : 2 / 5 / n ≤ (1 - (1 + θ) / y ^ n) / n :=
    div_le_div_of_nonneg_right (by linarith) n.cast_nonneg
  have errors : 12 * u < 2 / 5 / n := by
    rw [lt_div_iff₀ (by linarith)]
    linarith
  have share : 0 ≤ (n - 1 + (1 + θ) / y ^ n) / n := div_nonneg (by linarith) n.cast_nonneg
  have less : (n - 1 + (1 + θ) / y ^ n) / n < 1 - 12 * u := by
    rw [factor_eq fine]
    linarith
  generalize (n - 1 + (1 + θ) / y ^ n) / n = w at share less ⊢
  have rounded : y * w * (1 + ρ) ≤ y * w * (1 + u) :=
    mul_le_mul_of_nonneg_left (by linarith [le_of_abs_le result]) (mul_nonneg positive.le share)
  have product : w * ((1 + 10 * u) * (1 + u)) < 1 :=
    (mul_lt_mul_of_pos_right less (by positivity)).trans_le (unseen_le unit.le)
  have scaled := mul_lt_mul_of_pos_left product positive
  have seen := mul_le_mul_of_nonneg_right rounded (show 0 ≤ 1 + 10 * u by linarith)
  linarith

end Formula.Newton
