import Formula.Proofs.NewtonRun
import Formula.Proofs.NewtonStep
import Mathlib.Analysis.SpecialFunctions.Pow.Real

set_option autoImplicit false

namespace Formula.Decimal.Root

def iterates (value : Decimal) (degree k : Nat) : Decimal :=
  (step value degree)^[k] (initialGuess value degree)

def passes (value : Decimal) (degree k : Nat) : Bool :=
  converged (iterates value degree k) (iterates value degree (k + 1))

def EndsByTest (value : Decimal) (degree : Nat) : Prop :=
  ∃ k < maxIterations, passes value degree k = true ∧ (∀ j < k, passes value degree j = false) ∧
    iterate value degree maxIterations (initialGuess value degree) = iterates value degree (k + 1)

variable {value : Decimal} {degree : Nat}

theorem iterates_succ (value : Decimal) (degree k : Nat) :
    iterates value degree (k + 1) = step value degree (iterates value degree k) :=
  Function.iterate_succ_apply' _ k _

theorem iterate_after {k : Nat} (before : ∀ j < k, passes value degree j = false) (steps : Nat) :
    iterate value degree (k + steps) (initialGuess value degree) =
      iterate value degree steps (iterates value degree k) := by
  induction k generalizing steps with
  | zero => rw [zero_add, iterates, Function.iterate_zero, id]
  | succ k ih =>
    have fails := before k (by omega)
    rw [passes, iterates_succ] at fails
    rw [show k + 1 + steps = k + (steps + 1) by omega, ih fun j below => before j (by omega),
      iterate, if_neg (by rw [fails]; exact Bool.false_ne_true), iterates_succ]

theorem ends_of_pass {k : Nat} (early : k < maxIterations) (pass : passes value degree k = true) :
    EndsByTest value degree := by
  have first : ∃ k, passes value degree k = true := ⟨k, pass⟩
  have least := Nat.find_min' first pass
  have before : ∀ j < Nat.find first, passes value degree j = false := by
    intro j below
    exact Bool.eq_false_iff.mpr (Nat.find_min first below)
  have found := Nat.find_spec first
  refine ⟨Nat.find first, by omega, found, before, ?_⟩
  obtain ⟨left, cap⟩ := Nat.exists_eq_add_of_lt (show Nat.find first < maxIterations by omega)
  rw [passes, iterates_succ] at found
  rw [cap, show Nat.find first + left + 1 = Nat.find first + (left + 1) by omega,
    iterate_after before, iterate, if_pos found, iterates_succ]

theorem capped_of_no_pass (none : ∀ j < maxIterations, passes value degree j = false) :
    ¬ EndsByTest value degree ∧
      iterate value degree maxIterations (initialGuess value degree) =
        iterates value degree maxIterations := by
  refine ⟨?_, iterate_after none 0⟩
  rintro ⟨k, early, pass, -⟩
  rw [none k early] at pass
  exact Bool.false_ne_true pass

theorem power_of_ten_value (exponent : Int) : (powerOfTen exponent).toRat = 10 ^ exponent := by
  rw [powerOfTen, to_rat_mk, zpow_neg, Int.cast_one, one_div, inv_inv]

theorem converged_iff (x next : Decimal) :
    converged x next = true ↔
      next.toRat = x.toRat ∨ |next.toRat - x.toRat| * 10 ^ 76 < next.toRat := by
  have bound : (powerOfTen convergenceDigits).toRat = 10 ^ 76 := by
    rw [power_of_ten_value, convergenceDigits]
    norm_num
  rw [converged, Bool.or_eq_true, is_zero_iff, less_iff, mul_value, abs_value, sub_value, bound,
    abs_eq_zero, sub_eq_zero]

theorem guess_pos (value : Decimal) (degree : Nat) : 0 < (initialGuess value degree).toRat := by
  rw [initialGuess, power_of_ten_value]
  exact scale_pos _

theorem guess_le (some : degree ≠ 0) {value : Decimal} (nonzero : value.unscaled ≠ 0) :
    (initialGuess value degree).toRat ^ degree ≤ |value.toRat| := by
  have floor := Int.ediv_mul_le (value.order - 1) (show (degree : Int) ≠ 0 by omega)
  rw [initialGuess, power_of_ten_value, ← zpow_natCast, ← zpow_mul]
  exact (zpow_le_zpow_right₀ (by norm_num) floor).trans (le_magnitude nonzero)

theorem lt_ten_guess (some : degree ≠ 0) (value : Decimal) :
    |value.toRat| < (10 * (initialGuess value degree).toRat) ^ degree := by
  have above := Int.lt_ediv_add_one_mul_self (value.order - 1) (show (0 : Int) < degree by omega)
  rw [initialGuess, power_of_ten_value, ← zpow_one_add₀ (by norm_num), ← zpow_natCast, ← zpow_mul,
    add_comm 1]
  exact (magnitude_lt value).trans_le (zpow_le_zpow_right₀ (by norm_num) (by omega))

theorem exists_root {a : ℚ} (positive : 0 < a) (some : degree ≠ 0) :
    ∃ s : ℝ, 0 < s ∧ s ^ degree = a := by
  have real : (0 : ℝ) < a := by exact_mod_cast positive
  exact ⟨(a : ℝ) ^ (degree : ℝ)⁻¹, Real.rpow_pos_of_pos real _,
    Real.rpow_inv_natCast_pow real.le some⟩

noncomputable def measured (value : Decimal) (degree : Nat) (s : ℝ) (k : Nat) : ℝ :=
  (iterates value degree k).toRat / s

section Measured

variable {s : ℝ} (root_pos : 0 < s) (root : s ^ degree = value.toRat) (two : 2 ≤ degree)
  (word : degree < 2 ^ 32)

include two word in
theorem fine : Newton.Fine degree (1 / 10 ^ 77) where
  two := two
  word := by
    have below : (degree : ℝ) < 2 ^ 32 := by exact_mod_cast word
    linarith
  positive := by positivity
  small := by
    have below : (degree : ℝ) < 2 ^ 32 := by exact_mod_cast word
    linarith

include root_pos root two word in
theorem step_relative {x : Decimal} (positive : 0 < x.toRat) :
    Newton.Step degree (1 / 10 ^ 77) (x.toRat / s) ((step value degree x).toRat / s) := by
  obtain ⟨θ, ρ, quotient, result, equation⟩ := step_value value positive two word
  have real : (0 : ℝ) < x.toRat := by exact_mod_cast positive
  have several : (0 : ℝ) < degree := by exact_mod_cast (by omega : 0 < degree)
  replace quotient := (Rat.cast_le (K := ℝ)).mpr quotient
  replace result := (Rat.cast_le (K := ℝ)).mpr result
  push_cast at quotient result
  refine ⟨θ, ρ, quotient.trans_eq (by ring), result, ?_⟩
  rw [equation]
  push_cast
  rw [div_pow, root]
  field_simp

include root_pos root two word in
theorem measured_pos (k : Nat) : 0 < measured value degree s k := by
  induction k with
  | zero =>
    have guess : (0 : ℝ) < (initialGuess value degree).toRat := by exact_mod_cast guess_pos _ _
    exact div_pos guess root_pos
  | succ k ih =>
    have before : 0 < (iterates value degree k).toRat := by
      rw [measured, div_pos_iff_of_pos_right root_pos] at ih
      exact_mod_cast ih
    have next := step_relative root_pos root two word before
    rw [← iterates_succ] at next
    exact Newton.step_pos (fine two word) ih next

include root_pos root two word in
theorem iterates_pos (k : Nat) : 0 < (iterates value degree k).toRat := by
  have positive := measured_pos root_pos root two word k
  rw [measured, div_pos_iff_of_pos_right root_pos] at positive
  exact_mod_cast positive

include root_pos root two word in
theorem measured_run : Newton.Run degree (1 / 10 ^ 77) (measured value degree s) where
  fine := fine two word
  start := measured_pos root_pos root two word 0
  step k := by
    have next := step_relative root_pos root two word (iterates_pos root_pos root two word k)
    rwa [← iterates_succ] at next

include root_pos in
theorem passes_iff (k : Nat) :
    passes value degree k = true ↔
      measured value degree s (k + 1) = measured value degree s k ∨
        Newton.Stands (10 * (1 / 10 ^ 77)) (measured value degree s) k := by
  have scaled : |measured value degree s (k + 1) - measured value degree s k| =
      |((iterates value degree (k + 1)).toRat : ℝ) - (iterates value degree k).toRat| / s := by
    rw [measured, measured, ← sub_div, abs_div, abs_of_pos root_pos]
  have cast : |(iterates value degree (k + 1)).toRat - (iterates value degree k).toRat| * 10 ^ 76 <
      (iterates value degree (k + 1)).toRat ↔
      |((iterates value degree (k + 1)).toRat : ℝ) - (iterates value degree k).toRat| * 10 ^ 76 <
        (iterates value degree (k + 1)).toRat := by
    rw [← Rat.cast_lt (K := ℝ)]
    push_cast
    rfl
  rw [passes, converged_iff, cast, Newton.Stands, scaled, measured, measured,
    div_left_inj' root_pos.ne', Rat.cast_inj, div_lt_iff₀ root_pos, mul_assoc _ _ s,
    div_mul_cancel₀ _ root_pos.ne']
  refine or_congr_right ⟨fun h => ?_, fun h => ?_⟩ <;> linarith

end Measured

theorem magnitude_pos (nonzero : value.toRat ≠ 0) : 0 < value.abs.toRat := by
  rw [abs_value]
  exact abs_pos.mpr nonzero

theorem of_magnitude_value (magnitude : Decimal) (degree : Nat) :
    (ofMagnitude magnitude degree).toRat = Exact.significant resultDigits
      (iterate magnitude degree maxIterations (initialGuess magnitude degree)).toRat := by
  rw [ofMagnitude, normalized_value, with_precision_value _ (by decide)]

theorem nth_root_eq (two : 2 ≤ degree) (nonzero : value.toRat ≠ 0)
    (real : value.toRat < 0 → degree % 2 = 1) :
    nthRoot value degree = .ok (if value.isNegative then -ofMagnitude value.abs degree
      else ofMagnitude value.abs degree) := by
  have not_zero : ¬ value.isZero = true := fun zero => nonzero ((is_zero_iff value).mp zero)
  have not_even : ¬ (value.isNegative && degree % 2 == 0) = true := by
    rw [Bool.and_eq_true, is_negative_iff, beq_iff_eq]
    rintro ⟨negative, even⟩
    have odd := real negative
    omega
  rw [nthRoot, if_neg (by omega), if_neg not_zero, if_neg not_even, if_neg (by omega)]

theorem nth_root_magnitude (two : 2 ≤ degree) (nonzero : value.toRat ≠ 0)
    (real : value.toRat < 0 → degree % 2 = 1) :
    ∃ r, nthRoot value degree = .ok r ∧
      r.toRat = (if value.toRat < 0 then -1 else 1) * Exact.significant resultDigits
        (iterate value.abs degree maxIterations (initialGuess value.abs degree)).toRat := by
  refine ⟨_, nth_root_eq two nonzero real, ?_⟩
  rw [← of_magnitude_value]
  by_cases negative : value.toRat < 0
  · rw [if_pos ((is_negative_iff value).mpr negative), if_pos negative, neg_value, neg_one_mul]
  · rw [if_neg fun flag => negative ((is_negative_iff value).mp flag), if_neg negative, one_mul]

end Formula.Decimal.Root
