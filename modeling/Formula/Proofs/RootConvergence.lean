import Formula.Proofs.RootIteration

set_option autoImplicit false

namespace Formula.Decimal.Root

variable {value : Decimal} {degree : Nat}

-- The first iterate without rounding, less what so many steps far above the root take off.
def fallen (value : Decimal) (degree steps : Nat) : ℚ :=
  Exact.newton value.toRat degree (initialGuess value degree).toRat *
    ((degree - 1) / degree) ^ steps

section Measured

variable {s : ℝ} (root_pos : 0 < s) (root : s ^ degree = value.toRat) (two : 2 ≤ degree)
  (word : degree < 2 ^ 32)

include root two in
theorem mean_eq :
    Newton.mean degree (measured value degree s 0) =
      (Exact.newton value.toRat degree (initialGuess value degree).toRat : ℚ) / s := by
  have guess : ((initialGuess value degree).toRat : ℝ) ≠ 0 := by
    exact_mod_cast (guess_pos value degree).ne'
  have several : (degree : ℝ) ≠ 0 := by exact_mod_cast (by omega : degree ≠ 0)
  have split := pow_sub_one_mul (show degree ≠ 0 by omega)
    ((initialGuess value degree).toRat : ℝ)
  rw [Newton.mean, measured, iterates, Function.iterate_zero, id, div_pow, root, one_div_div,
    Exact.newton, ← split]
  push_cast
  field_simp

include root two in
theorem fallen_power (steps : Nat) :
    (Newton.mean degree (measured value degree s 0) * ((degree - 1) / degree) ^ steps) ^ degree =
      (fallen value degree steps ^ degree : ℚ) / value.toRat := by
  rw [mean_eq root two, div_mul_eq_mul_div, div_pow, root, fallen]
  push_cast
  rfl

include root_pos root two in
theorem measured_guess_le_one : measured value degree s 0 ≤ 1 := by
  have real : (0 : ℝ) < value.toRat := by
    rw [← root]
    positivity
  have positive : 0 < value.toRat := by exact_mod_cast real
  have below := guess_le (show degree ≠ 0 by omega) ((to_rat_pos value).mp positive).ne'
  rw [abs_of_pos positive] at below
  have guess : (0 : ℝ) < (initialGuess value degree).toRat := by exact_mod_cast guess_pos _ _
  refine (pow_le_one_iff_of_nonneg (div_pos guess root_pos).le (show degree ≠ 0 by omega)).mp ?_
  rw [div_pow, root, div_le_one real]
  exact_mod_cast below

end Measured

theorem ends_of_early (positive : 0 < value.toRat) (two : 2 ≤ degree) (word : degree < 2 ^ 32)
    (early : fallen value degree 975 ^ degree ≤ 7000 * value.toRat) : EndsByTest value degree := by
  obtain ⟨s, root_pos, root⟩ := exists_root positive (show degree ≠ 0 by omega)
  have real : (0 : ℝ) < value.toRat := by exact_mod_cast positive
  obtain ⟨k, soon, stands⟩ :=
    (measured_run root_pos root two word).stands_in_time (by norm_num) (by
      rw [fallen_power root two, div_le_iff₀ real]
      exact_mod_cast early)
  exact ends_of_pass soon ((passes_iff root_pos k).mpr (.inr stands))

theorem no_pass_of_late (positive : 0 < value.toRat) (two : 2 ≤ degree) (word : degree < 2 ^ 32)
    (late : 3 * value.toRat ≤ fallen value degree 999 ^ degree) :
    (∀ j < maxIterations, passes value degree j = false) ∧
      2 * value.toRat ≤ (iterates value degree maxIterations).toRat ^ degree := by
  obtain ⟨s, root_pos, root⟩ := exists_root positive (show degree ≠ 0 by omega)
  have real : (0 : ℝ) < value.toRat := by exact_mod_cast positive
  have run := measured_run root_pos root two word
  have above : 3 ≤ (Newton.mean degree (measured value degree s 0) *
      ((degree - 1) / degree) ^ 999) ^ degree := by
    rw [fallen_power root two, le_div_iff₀ real]
    exact_mod_cast late
  constructor
  · intro j early
    rw [Bool.eq_false_iff, ne_eq, passes_iff root_pos]
    have moves := run.moves_on (measured_guess_le_one root_pos root two) above early
    rintro (stays | stands)
    · rw [stays, sub_self, abs_zero] at moves
      linarith [run.pos j]
    · exact moves.not_gt stands
  · have power := run.still_above above (k := 1000) (by norm_num) le_rfl
    rw [measured, div_pow, root, le_div_iff₀ real] at power
    exact_mod_cast power

theorem overshoot_le {n : Nat} (some : 1 ≤ n) {r t : ℚ} (one : 1 ≤ r) (most : r ≤ t) :
    (n - 1 + r) ^ n * t ≤ (n - 1 + t) ^ n * r := by
  have several : (1 : ℚ) ≤ n := by exact_mod_cast some
  have base : 0 < n - 1 + r := by linarith
  have bernoulli := one_add_mul_le_pow (a := (t - r) / (n - 1 + r))
    (le_trans (by norm_num) (div_nonneg (by linarith) base.le)) n
  have sum : 1 + (t - r) / (n - 1 + r) = (n - 1 + t) / (n - 1 + r) := by
    field_simp
    ring
  rw [sum, div_pow, le_div_iff₀ (by positivity)] at bernoulli
  have share : t ≤ (1 + n * ((t - r) / (n - 1 + r))) * r := by
    have form : (1 + n * ((t - r) / (n - 1 + r))) * r =
        t + (t - r) * ((n - 1) * (r - 1)) / (n - 1 + r) := by
      field_simp
      ring
    have nonneg : 0 ≤ (t - r) * ((n - 1) * (r - 1)) / (n - 1 + r) :=
      div_nonneg (mul_nonneg (by linarith) (mul_nonneg (by linarith) (by linarith))) base.le
    linarith
  calc
    (n - 1 + r) ^ n * t ≤ (n - 1 + r) ^ n * ((1 + n * ((t - r) / (n - 1 + r))) * r) :=
      mul_le_mul_of_nonneg_left share (by positivity)
    _ = (1 + n * ((t - r) / (n - 1 + r))) * (n - 1 + r) ^ n * r := by ring
    _ ≤ (n - 1 + t) ^ n * r := mul_le_mul_of_nonneg_right bernoulli (by linarith)

theorem largest_overshoot {n : Nat} (two : 2 ≤ n) (few : n ≤ 22) :
    ((n - 1 + 10 ^ n) * (n - 1) ^ 975) ^ n ≤ 7000 * 10 ^ n * (n * n ^ 975) ^ n := by
  have all : ∀ n < 23, 2 ≤ n →
      ((n - 1 + 10 ^ n) * (n - 1) ^ 975) ^ n ≤ 7000 * 10 ^ n * (n * n ^ 975) ^ n := by
    decide +kernel
  exact all n (by omega) two

theorem newton_scaled {n : Nat} (some : 1 ≤ n) {g : ℚ} (positive : 0 < g) (r : ℚ) :
    Exact.newton (r * g ^ n) n g = g * (n - 1 + r) / n := by
  rw [Exact.newton, ← pow_sub_one_mul (show n ≠ 0 by omega) g]
  field_simp

theorem overshoot_of_few {n : Nat} (two : 2 ≤ n) (few : n ≤ 22) {r : ℚ} (one : 1 ≤ r)
    (most : r ≤ 10 ^ n) :
    (n - 1 + r) ^ n * ((n - 1) ^ 975) ^ n ≤ 7000 * r * (n * n ^ 975) ^ n := by
  have several : (2 : ℚ) ≤ n := by exact_mod_cast two
  have table := (Nat.cast_le (α := ℚ)).mpr (largest_overshoot two few)
  push_cast [Nat.cast_sub (show 1 ≤ n by omega)] at table
  have overshoot := overshoot_le (show 1 ≤ n by omega) one most
  have taken : (0 : ℚ) ≤ (n - 1) ^ 975 := pow_nonneg (by linarith) 975
  generalize ((n : ℚ) - 1) ^ 975 = p at table taken ⊢
  generalize (n : ℚ) ^ 975 = q at table ⊢
  refine le_of_mul_le_mul_right ?_ (show (0 : ℚ) < 10 ^ n by positivity)
  calc
    (n - 1 + r) ^ n * p ^ n * 10 ^ n = (n - 1 + r) ^ n * 10 ^ n * p ^ n := by ring
    _ ≤ (n - 1 + 10 ^ n) ^ n * r * p ^ n :=
      mul_le_mul_of_nonneg_right overshoot (pow_nonneg taken n)
    _ = ((n - 1 + 10 ^ n) * p) ^ n * r := by
      rw [mul_pow _ p]
      ring
    _ ≤ 7000 * 10 ^ n * (n * q) ^ n * r := mul_le_mul_of_nonneg_right table (by linarith)
    _ = 7000 * r * (n * q) ^ n * 10 ^ n := by ring

theorem fallen_of_few (positive : 0 < value.toRat) (two : 2 ≤ degree) (few : degree ≤ 22) :
    fallen value degree 975 ^ degree ≤ 7000 * value.toRat := by
  have below := guess_le (show degree ≠ 0 by omega) ((to_rat_pos value).mp positive).ne'
  have above := lt_ten_guess (show degree ≠ 0 by omega) value
  rw [abs_of_pos positive] at below above
  have guess := guess_pos value degree
  have several : (0 : ℚ) < degree := by exact_mod_cast (by omega : 0 < degree)
  rw [fallen]
  generalize (initialGuess value degree).toRat = g at below above guess ⊢
  have power : 0 < g ^ degree := by positivity
  obtain ⟨r, number⟩ : ∃ r, value.toRat = r * g ^ degree :=
    ⟨value.toRat / g ^ degree, (div_mul_cancel₀ _ power.ne').symm⟩
  rw [number] at below above ⊢
  have one : 1 ≤ r := le_of_mul_le_mul_right (by rwa [one_mul]) power
  have most : r ≤ 10 ^ degree := by
    rw [mul_pow] at above
    exact (lt_of_mul_lt_mul_right above power.le).le
  have overshoot := overshoot_of_few two few one most
  have divisor : (0 : ℚ) < degree * degree ^ 975 := mul_pos several (pow_pos several 975)
  have form : g * (degree - 1 + r) / degree * ((degree - 1) / degree) ^ 975 =
      g * ((degree - 1 + r) * (degree - 1) ^ 975) / (degree * degree ^ 975) := by
    rw [div_pow, div_mul_div_comm, mul_assoc g]
  rw [newton_scaled (by omega) guess, form, div_pow, mul_pow g, mul_pow _ (_ ^ 975),
    div_le_iff₀ (pow_pos divisor degree)]
  exact (mul_le_mul_of_nonneg_left overshoot power.le).trans_eq (by ring)

theorem rounded_above {a x : ℚ} (word : degree < 2 ^ 32) (positive : 0 < a) (pos : 0 < x)
    (above : 2 * a ≤ x ^ degree) :
    3 / 2 * a < |Exact.significant resultDigits x| ^ degree := by
  obtain ⟨ρ, small, value⟩ := Exact.significant_relative 63 x
  have below : (degree : ℚ) < 2 ^ 32 := by exact_mod_cast word
  have least : 1 - 1 / 2 / 10 ^ 63 ≤ 1 + ρ := by linarith [neg_le_of_abs_le small]
  have bernoulli := Newton.one_sub_pow (h := (1 / 2 / 10 ^ 63 : ℚ)) (by norm_num) degree
  have factor : 9 / 10 ≤ (1 + ρ) ^ degree := by
    refine le_trans ?_ (bernoulli.trans (pow_le_pow_left₀ (by norm_num) least degree))
    linarith
  rw [resultDigits, value, abs_of_pos (mul_pos pos (by linarith)), mul_pow]
  calc
    3 / 2 * a < 2 * a * (9 / 10) := by linarith
    _ ≤ x ^ degree * (1 + ρ) ^ degree := mul_le_mul above factor (by norm_num) (by positivity)

/-- The loop is left by its test for all degrees up to twenty-two, and for all numbers on which the
first iterate falls near the root in time. If the first iterate is too far above the root, no test
passes up to the cap, and what is returned is not a root. -/
theorem cap_decides_root (two : 2 ≤ degree) (word : degree < 2 ^ 32) (nonzero : value.toRat ≠ 0)
    (real : value.toRat < 0 → degree % 2 = 1) :
    (degree ≤ 22 → EndsByTest value.abs degree) ∧
    (fallen value.abs degree 975 ^ degree ≤ 7000 * |value.toRat| → EndsByTest value.abs degree) ∧
    (3 * |value.toRat| ≤ fallen value.abs degree 999 ^ degree →
      ¬ EndsByTest value.abs degree ∧
        ∃ r, nthRoot value degree = .ok r ∧ 3 / 2 * |value.toRat| < |r.toRat| ^ degree) := by
  have positive := magnitude_pos nonzero
  rw [← abs_value]
  refine ⟨fun few => ends_of_early positive two word (fallen_of_few positive two few),
    ends_of_early positive two word, fun late => ?_⟩
  obtain ⟨none, above⟩ := no_pass_of_late positive two word late
  obtain ⟨capped, last⟩ := capped_of_no_pass none
  refine ⟨capped, ?_⟩
  obtain ⟨r, returned, result⟩ := nth_root_magnitude two nonzero real
  obtain ⟨s, root_pos, root⟩ := exists_root positive (show degree ≠ 0 by omega)
  have size : |r.toRat| = |Exact.significant resultDigits
      (iterates value.abs degree maxIterations).toRat| := by
    rw [result, last, abs_mul]
    split <;> simp
  refine ⟨r, returned, ?_⟩
  rw [size]
  exact rounded_above word positive (iterates_pos root_pos root two word _) above

theorem fallen_of_integer {a n : Nat} (some : 1 ≤ n)
    (guess : initialGuess (ofInt a) n = powerOfTen 0) (steps : Nat) :
    fallen (ofInt a) n steps = ((n - 1 + a) * (n - 1) ^ steps : Nat) / (n * n ^ steps : Nat) := by
  have newton := newton_scaled some one_pos a
  rw [one_pow, mul_one] at newton
  rw [fallen, guess, power_of_ten_value, zpow_zero, of_int_value, Int.cast_natCast, newton, div_pow,
    div_mul_div_comm]
  push_cast [Nat.cast_sub some]
  rw [one_mul]

theorem late_of_integer {a n : Nat} (some : 1 ≤ n)
    (guess : initialGuess (ofInt a) n = powerOfTen 0)
    (late : 3 * a * (n * n ^ 999) ^ n ≤ ((n - 1 + a) * (n - 1) ^ 999) ^ n) :
    3 * (ofInt a).toRat ≤ fallen (ofInt a) n 999 ^ n := by
  have divisor : 0 < (n * n ^ 999) ^ n := by positivity
  rw [fallen_of_integer some guess, div_pow, of_int_value, Int.cast_natCast,
    le_div_iff₀ (by exact_mod_cast divisor)]
  exact_mod_cast late

theorem early_of_integer {a n : Nat} (some : 1 ≤ n)
    (guess : initialGuess (ofInt a) n = powerOfTen 0)
    (early : ((n - 1 + a) * (n - 1) ^ 975) ^ n ≤ 7000 * a * (n * n ^ 975) ^ n) :
    fallen (ofInt a) n 975 ^ n ≤ 7000 * (ofInt a).toRat := by
  have divisor : 0 < (n * n ^ 975) ^ n := by positivity
  rw [fallen_of_integer some guess, div_pow, of_int_value, Int.cast_natCast,
    div_le_iff₀ (by exact_mod_cast divisor)]
  exact_mod_cast early

theorem nines_late : 3 * (ofInt (9 ^ 23 : Nat)).toRat ≤ fallen (ofInt (9 ^ 23 : Nat)) 23 999 ^ 23 :=
  late_of_integer (by norm_num) (by decide +kernel) (by decide +kernel)

theorem cap_decides_root_of_nines :
    (¬ EndsByTest (ofInt (9 ^ 23 : Nat)).abs 23 ∧
      ∃ r, nthRoot (ofInt (9 ^ 23 : Nat)) 23 = .ok r ∧
        3 / 2 * |(ofInt (9 ^ 23 : Nat)).toRat| < |r.toRat| ^ 23) ∧
    EndsByTest (ofInt (2 : Nat)).abs 100 := by
  have nines : (0 : ℚ) < (ofInt (9 ^ 23 : Nat)).toRat := (to_rat_pos _).mpr (by decide)
  have two : (0 : ℚ) < (ofInt (2 : Nat)).toRat := (to_rat_pos _).mpr (by decide)
  constructor
  · refine (cap_decides_root (by norm_num) (by norm_num) nines.ne'
      fun negative => absurd negative nines.not_gt).2.2 ?_
    rw [abs_of_pos nines]
    exact nines_late
  · refine (cap_decides_root (by norm_num) (by norm_num) two.ne'
      fun negative => absurd negative two.not_gt).2.1 ?_
    rw [abs_of_pos two]
    exact early_of_integer (by norm_num) (by decide +kernel) (by decide +kernel)

/-- Not every loop for a real root is left by its test. -/
theorem loop_reaches_cap :
    ¬ ∀ (value : Decimal) (degree : Nat), 2 ≤ degree → degree < 2 ^ 32 → value.inRange = some true →
      value.isZero = false → (value.isNegative = true → degree % 2 = 1) →
      EndsByTest value.abs degree := by
  intro always
  have nines : (0 : ℚ) < (ofInt (9 ^ 23 : Nat)).toRat := (to_rat_pos _).mpr (by decide)
  have ends := always (ofInt (9 ^ 23 : Nat)) 23 (by norm_num) (by norm_num) (by decide +kernel)
    (by decide) (by decide)
  obtain ⟨none, -⟩ := no_pass_of_late nines (by norm_num) (by norm_num) nines_late
  exact (capped_of_no_pass none).1 ends

end Formula.Decimal.Root
