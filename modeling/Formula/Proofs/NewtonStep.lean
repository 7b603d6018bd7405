import Formula.Decimal.Root
import Formula.Proofs.EqualNumbers
import Formula.Proofs.NewtonMap
import Formula.Proofs.RoundedDigits

set_option autoImplicit false

namespace Formula

def Exact.newton (a : ℚ) (degree : Nat) (x : ℚ) : ℚ :=
  ((degree - 1) * x + a / x ^ (degree - 1)) / degree

namespace Decimal

theorem div_relative (a : Decimal) {b : Decimal} (nonzero : b.toRat ≠ 0) :
    ∃ κ : ℚ, |κ| ≤ 1 / 2 / 10 ^ 99 ∧ (a / b).toRat = a.toRat / b.toRat * (1 + κ) := by
  have error := kept_error a b (a.toRat / b.toRat)
  rw [← div_value a nonzero] at error
  by_cases zero : a.toRat / b.toRat = 0
  · rw [zero, abs_zero, zero_div, zero_div, sub_zero] at error
    exact ⟨0, by positivity, by rw [zero, zero_mul]; exact abs_nonpos_iff.mp error⟩
  · refine ⟨(a / b).toRat / (a.toRat / b.toRat) - 1, ?_, ?_⟩
    · rw [div_sub_one zero, abs_div, div_le_iff₀ (abs_pos.mpr zero)]
      linarith
    · rw [add_sub_cancel, mul_div_cancel₀ _ zero]

namespace Root

theorem working_relative (d : Decimal) :
    ∃ ρ : ℚ, |ρ| ≤ 1 / 2 / 10 ^ 77 ∧
      (d.withPrecision workingDigits).toRat = d.toRat * (1 + ρ) := by
  obtain ⟨ρ, small, value⟩ := Exact.significant_relative 77 d.toRat
  exact ⟨ρ, small, (with_precision_value d (by decide)).trans value⟩

-- Both sides are unfolded at once, so that no rounding is computed to compare them.
theorem multiplied_succ (x : Decimal) (factors : Nat) (result : Decimal) :
    multiplied x (factors + 1) result =
      multiplied x factors ((result * x).withPrecision workingDigits) := by
  delta multiplied
  rfl

theorem multiplied_value (x : Decimal) (factors : Nat) (result : Decimal) :
    ∃ π : ℚ, (1 - 1 / 2 / 10 ^ 77) ^ factors ≤ π ∧ π ≤ (1 + 1 / 2 / 10 ^ 77) ^ factors ∧
      (multiplied x factors result).toRat = result.toRat * x.toRat ^ factors * π := by
  induction factors generalizing result with
  | zero =>
    refine ⟨1, by norm_num, by norm_num, ?_⟩
    rw [pow_zero, mul_one, mul_one]
    rfl
  | succ factors ih =>
    obtain ⟨ρ, small, rounded⟩ := working_relative (result * x)
    obtain ⟨π, low, high, value⟩ := ih ((result * x).withPrecision workingDigits)
    obtain ⟨above, below⟩ := abs_le.mp small
    have positive : (0 : ℚ) ≤ π := le_trans (by positivity) low
    refine ⟨(1 + ρ) * π, ?_, ?_, ?_⟩
    · rw [pow_succ']
      exact mul_le_mul (by linarith) low (by positivity) (by linarith)
    · rw [pow_succ']
      exact mul_le_mul (by linarith) high positive (by positivity)
    · rw [multiplied_succ, value, rounded, mul_value, pow_succ]
      ring

theorem rounded_power_value (x : Decimal) (exponent : Nat) :
    ∃ π : ℚ, (1 - 1 / 2 / 10 ^ 77) ^ exponent ≤ π ∧ π ≤ (1 + 1 / 2 / 10 ^ 77) ^ exponent ∧
      (roundedPower x exponent).toRat = x.toRat ^ exponent * π := by
  obtain ⟨π, low, high, value⟩ := multiplied_value x exponent one
  exact ⟨π, low, high, by rw [roundedPower, value, one_value, one_mul]⟩

theorem degree_small {degree : Nat} (word : degree < 2 ^ 32) :
    (degree : ℚ) / 10 ^ 77 ≤ 1 / 10 ^ 67 := by
  have below : (degree : ℚ) < 2 ^ 32 := by exact_mod_cast word
  rw [div_le_div_iff₀ (by norm_num) (by norm_num)]
  linarith

theorem power_least {degree : Nat} (two : 2 ≤ degree) :
    1 - degree / 10 ^ 77 / 2 ≤ (1 - 1 / 2 / 10 ^ 77 : ℚ) ^ (degree - 1) := by
  have bernoulli := Newton.one_sub_pow (h := (1 / 2 / 10 ^ 77 : ℚ)) (by norm_num) (degree - 1)
  rw [Nat.cast_sub (by omega), Nat.cast_one] at bernoulli
  linarith

theorem power_factor_pos {degree : Nat} (two : 2 ≤ degree) (word : degree < 2 ^ 32) {π : ℚ}
    (low : (1 - 1 / 2 / 10 ^ 77) ^ (degree - 1) ≤ π) : 0 < π := by
  linarith [degree_small word, power_least two]

theorem quotient_error {degree : Nat} (two : 2 ≤ degree) (word : degree < 2 ^ 32) {κ π : ℚ}
    (rounded : |κ| ≤ 1 / 2 / 10 ^ 99) (low : (1 - 1 / 2 / 10 ^ 77) ^ (degree - 1) ≤ π)
    (high : π ≤ (1 + 1 / 2 / 10 ^ 77) ^ (degree - 1)) :
    |(1 + κ) / π - 1| ≤ 2 * degree / 10 ^ 77 := by
  have positive := power_factor_pos two word low
  have small := degree_small word
  have several : (2 : ℚ) ≤ degree := by exact_mod_cast two
  have unit : (2 : ℚ) / 10 ^ 77 ≤ degree / 10 ^ 77 := by gcongr
  have least := power_least two
  have most : π * (1 - degree / 10 ^ 77 / 2) ≤ 1 := by
    calc
      π * (1 - degree / 10 ^ 77 / 2) ≤
          (1 + 1 / 2 / 10 ^ 77) ^ (degree - 1) * (1 - 1 / 2 / 10 ^ 77) ^ (degree - 1) :=
        mul_le_mul high least (by linarith) (by positivity)
      _ ≤ 1 := Newton.opposite_pow_le_one (by norm_num) (by norm_num) _
  obtain ⟨above, below⟩ := abs_le.mp rounded
  rw [div_sub_one positive.ne', abs_div, abs_of_pos positive, div_le_iff₀ positive, abs_le,
    mul_div_assoc]
  generalize (degree : ℚ) / 10 ^ 77 = D at small least unit most ⊢
  constructor <;> nlinarith

theorem result_error {κ ρ : ℚ} (first : |κ| ≤ 1 / 2 / 10 ^ 99) (second : |ρ| ≤ 1 / 2 / 10 ^ 77) :
    |(1 + κ) * (1 + ρ) - 1| ≤ 1 / 10 ^ 77 := by
  obtain ⟨a, b⟩ := abs_le.mp first
  obtain ⟨c, d⟩ := abs_le.mp second
  have product : |κ * ρ| ≤ 1 / 2 / 10 ^ 99 * 1 := by
    rw [abs_mul]
    exact mul_le_mul first (second.trans (by norm_num)) (abs_nonneg _) (by norm_num)
  obtain ⟨e, f⟩ := abs_le.mp product
  rw [abs_le]
  constructor <;> linarith

/-- A step is Newton's step, up to two relative errors. -/
theorem step_value (value : Decimal) {x : Decimal} {degree : Nat} (positive : 0 < x.toRat)
    (two : 2 ≤ degree) (word : degree < 2 ^ 32) :
    ∃ θ ρ : ℚ, |θ| ≤ 2 * degree / 10 ^ 77 ∧ |ρ| ≤ 1 / 10 ^ 77 ∧
      (step value degree x).toRat =
        x.toRat * ((degree - 1 + (1 + θ) * (value.toRat / x.toRat ^ degree)) / degree) *
          (1 + ρ) := by
  obtain ⟨π, low, high, power⟩ := rounded_power_value x (degree - 1)
  have nonzero : (roundedPower x (degree - 1)).toRat ≠ 0 := by
    rw [power]
    exact (mul_pos (pow_pos positive _) (power_factor_pos two word low)).ne'
  obtain ⟨κ, small, quotient⟩ := div_relative value nonzero
  have error := quotient_error two word small low high
  have divisor : (ofInt degree).toRat ≠ 0 := by
    rw [of_int_value]
    exact_mod_cast (by omega : degree ≠ 0)
  obtain ⟨κ', small', mean⟩ := div_relative
    (ofInt (degree - 1) * x + value / roundedPower x (degree - 1)) divisor
  obtain ⟨ρ, small'', rounded⟩ := working_relative
    ((ofInt (degree - 1) * x + value / roundedPower x (degree - 1)) / ofInt degree)
  refine ⟨(1 + κ) / π - 1, (1 + κ') * (1 + ρ) - 1, error, result_error small' small'', ?_⟩
  have split := pow_sub_one_mul (show degree ≠ 0 by omega) x.toRat
  rw [step, rounded, mean, add_value, mul_value, quotient, power, of_int_value, of_int_value, ← split]
  push_cast
  field_simp
  ring

end Root

end Decimal

end Formula
