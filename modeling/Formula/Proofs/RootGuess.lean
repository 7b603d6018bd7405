import Formula.Proofs.PowerWords
import Formula.Proofs.RootIteration

set_option autoImplicit false

namespace Formula.Decimal

def Words.initialGuess (magnitude : Decimal) (degree : Nat) : Result Decimal := do
  let order ← held ((magnitude.digits : Int) - 1 - magnitude.scale)
  let exponent ← held (order / degree)
  number 1 (-exponent)

namespace Root

variable {v : Decimal} {n : Nat}

theorem divided_fits (nonzero : n ≠ 0) {order : Int} (fits : fitsWord 63 order = true) :
    fitsWord 63 (order / n) = true := by
  rw [fits_word_iff] at fits ⊢
  have positive : (0 : Int) < n := by omega
  rcases le_total 0 order with nonneg | nonpos
  · have below := Int.ediv_le_self (n : Int) nonneg
    have natural := Int.ediv_nonneg nonneg positive.le
    omega
  · have above : order ≤ order / n := by
      rw [Int.le_ediv_iff_mul_le positive]
      exact mul_le_of_one_le_right nonpos (by omega)
    have negative := Int.ediv_nonpos_of_nonpos_of_neg nonpos positive
    omega

theorem guess_words (nonzero : n ≠ 0) (order : fitsWord 63 (v.order - 1) = true)
    (exponent : fitsWord 63 (-((v.order - 1) / n)) = true) :
    Words.initialGuess v n = .ok (initialGuess v n) := by
  have same : (v.digits : Int) - 1 - v.scale = v.order - 1 := by
    rw [Decimal.order]
    omega
  rw [Words.initialGuess, same, Words.held_of_fits order]
  change Words.held _ >>= _ = _
  rw [Words.held_of_fits (divided_fits nonzero order)]
  exact Words.number_of_fits exponent 1

theorem ten_power_le_root_iff (nonzero : n ≠ 0) (positive : 0 < v.toRat) (k : Int) :
    (10 : ℝ) ^ k ≤ (v.toRat : ℝ) ^ (n : ℝ)⁻¹ ↔ ((10 : ℚ) ^ k) ^ n ≤ v.toRat := by
  have real : (0 : ℝ) ≤ v.toRat := by exact_mod_cast positive.le
  have degree : (0 : ℝ) < n := by exact_mod_cast Nat.pos_of_ne_zero nonzero
  rw [Real.le_rpow_inv_iff_of_pos (zpow_nonneg (by norm_num) k) real degree, Real.rpow_natCast,
    ← Rat.cast_le (K := ℝ)]
  push_cast
  rfl

theorem guess_greatest (nonzero : n ≠ 0) (positive : 0 < v.toRat) :
    IsGreatest {p : ℝ | (∃ k : Int, p = 10 ^ k) ∧ p ≤ (v.toRat : ℝ) ^ (n : ℝ)⁻¹}
      (initialGuess v n).toRat := by
  have magnitude := abs_of_pos positive
  have below := guess_le nonzero (((to_rat_pos v).mp positive).ne')
  have above := lt_ten_guess nonzero v
  rw [magnitude] at below above
  have guess : (initialGuess v n).toRat = 10 ^ ((v.order - 1) / n) := power_of_ten_value _
  rw [guess] at below above ⊢
  push_cast
  constructor
  · exact ⟨⟨_, rfl⟩, (ten_power_le_root_iff nonzero positive _).mpr below⟩
  · rintro p ⟨⟨k, rfl⟩, le⟩
    have powers := ((ten_power_le_root_iff nonzero positive k).mp le).trans_lt above
    have next : (10 : ℚ) ^ k < 10 * 10 ^ ((v.order - 1) / n) :=
      lt_of_pow_lt_pow_left₀ n (by positivity) powers
    rw [← zpow_one_add₀ (by norm_num), zpow_lt_zpow_iff_right₀ (by norm_num)] at next
    exact zpow_le_zpow_right₀ (by norm_num) (by omega)

/-- The guess is a power of ten, and the largest one that is not above the root: its power is not
above the number, and that of ten times the guess is. Where the exponents of the number and of the
guess are words, nothing overflows. -/
theorem guess_brackets_root (positive : 0 < v.toRat) (nonzero : n ≠ 0) :
    (∃ k : Int, initialGuess v n = powerOfTen k) ∧
    (initialGuess v n).toRat ^ n ≤ v.toRat ∧ v.toRat < (10 * (initialGuess v n).toRat) ^ n ∧
    IsGreatest {p : ℝ | (∃ k : Int, p = 10 ^ k) ∧ p ≤ (v.toRat : ℝ) ^ (n : ℝ)⁻¹}
      (initialGuess v n).toRat ∧
    (fitsWord 63 (v.order - 1) = true → fitsWord 63 (-((v.order - 1) / n)) = true →
      Words.initialGuess v n = .ok (initialGuess v n)) := by
  have magnitude := abs_of_pos positive
  have below := guess_le nonzero (((to_rat_pos v).mp positive).ne')
  have above := lt_ten_guess nonzero v
  rw [magnitude] at below above
  exact ⟨⟨_, rfl⟩, below, above, guess_greatest nonzero positive, guess_words nonzero⟩

theorem guess_brackets_root_of_fraction :
    let v : Decimal := ⟨5, 3⟩
    0 < v.toRat ∧ initialGuess v 3 = ⟨1, 1⟩ ∧ (initialGuess v 3).toRat ^ 3 ≤ v.toRat ∧
      v.toRat < (10 * (initialGuess v 3).toRat) ^ 3 ∧
      Words.initialGuess v 3 = .ok (initialGuess v 3) := by
  have positive : 0 < (⟨5, 3⟩ : Decimal).toRat := (to_rat_pos _).mpr (by decide)
  obtain ⟨-, below, above, -, words⟩ := guess_brackets_root (n := 3) positive (by decide)
  exact ⟨positive, by decide +kernel, below, above, words (by decide +kernel) (by decide +kernel)⟩

end Root

end Formula.Decimal
