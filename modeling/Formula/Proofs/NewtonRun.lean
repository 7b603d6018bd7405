import Formula.Proofs.NewtonMap

set_option autoImplicit false

namespace Formula.Newton

structure Run (n : Nat) (u : ℝ) (y : Nat → ℝ) : Prop where
  fine : Fine n u
  start : 0 < y 0
  step : ∀ k, Step n u (y k) (y (k + 1))

def Stands (tolerance : ℝ) (y : Nat → ℝ) (k : Nat) : Prop :=
  |y (k + 1) - y k| < tolerance * y (k + 1)

noncomputable def mean (n : Nat) (y : ℝ) : ℝ := y * ((n - 1 + 1 / y ^ n) / n)

namespace Run

variable {n : Nat} {u : ℝ} {y : Nat → ℝ}

theorem pos (run : Run n u y) (k : Nat) : 0 < y k := by
  induction k with
  | zero => exact run.start
  | succ k ih => exact step_pos run.fine ih (run.step k)

theorem power_ge (run : Run n u y) {k : Nat} (some : 1 ≤ k) : 1 - 1 / 10 ^ 56 ≤ y k ^ n := by
  obtain ⟨k, rfl⟩ := Nat.exists_eq_add_of_le' some
  have least := step_ge run.fine (run.pos k) (run.step k)
  have tiny := run.fine.tiny
  calc
    1 - 1 / 10 ^ 56 ≤ 1 - n * (3 * (n * u)) := by linarith [run.fine.square_small]
    _ ≤ (1 - 3 * (n * u)) ^ n := one_sub_pow (by linarith [run.fine.unit_le, run.fine.positive]) n
    _ ≤ y (k + 1) ^ n := pow_le_pow_left₀ (by linarith) least n

theorem halving (run : Run n u y) {k : Nat} (some : 1 ≤ k) (near : y k ^ n ≤ 1 + 10 ^ 4) {j : Nat}
    (few : j ≤ 15) : y (k + j) ^ n ≤ 1 + 10 ^ 4 / 2 ^ j := by
  induction j with
  | zero => simpa using near
  | succ j ih =>
    have scale : (2 : ℝ) ^ j ≤ 2 ^ 15 := pow_le_pow_right₀ one_le_two (by omega)
    have one : (1 : ℝ) ≤ 2 ^ j := one_le_pow₀ one_le_two
    have half : y (k + j + 1) ^ n ≤ 1 + 10 ^ 4 / 2 ^ j / 2 := by
      refine halved run.fine ?_ ?_ (run.power_ge (by omega)) (ih (by omega)) (run.step (k + j))
      · rw [div_le_div_iff₀ (by norm_num) (by linarith)]
        linarith
      · exact div_le_self (by norm_num) one
    rwa [div_div, ← pow_succ] at half

theorem squaring (run : Run n u y) {k : Nat} (some : 1 ≤ k) (near : y k ^ n ≤ 1 + 1 / 2) {j : Nat}
    (few : j ≤ 7) : y (k + j) ^ n ≤ 1 + (1 / 2) ^ 2 ^ j := by
  induction j with
  | zero => simpa using near
  | succ j ih =>
    have exponent : 2 ^ j ≤ 2 ^ 6 := Nat.pow_le_pow_right two_pos (by omega)
    have square : y (k + j + 1) ^ n ≤ 1 + ((1 / 2) ^ 2 ^ j) ^ 2 := by
      refine squared run.fine ?_ ?_ (run.power_ge (by omega)) (ih (by omega)) (run.step (k + j))
      · calc
          (1 : ℝ) / 10 ^ 20 ≤ (1 / 2) ^ 2 ^ 6 := by norm_num
          _ ≤ (1 / 2) ^ 2 ^ j := pow_le_pow_of_le_one (by norm_num) (by norm_num) exponent
      · exact pow_le_of_le_one (by norm_num) (by norm_num) (by positivity)
    rwa [← pow_mul, ← pow_succ] at square

-- Fifteen steps until a power is half too large, seven more until the rounding hides the rest.
theorem stands_of_near (run : Run n u y) (coarse : (1 / 2) ^ 256 ≤ u) {k : Nat} (some : 1 ≤ k)
    (near : y k ^ n ≤ 10 ^ 4) : Stands (10 * u) y (k + 23) := by
  have half : y (k + 15) ^ n ≤ 1 + 1 / 2 :=
    (run.halving some (by linarith) le_rfl).trans (by norm_num)
  have hidden : y (k + 15 + 7) ^ n ≤ 1 + (1 / 2) ^ 2 ^ 7 := run.squaring (by omega) half le_rfl
  have hidden' : y (k + 15 + 7 + 1) ^ n ≤ 1 + (1 / 2) ^ 2 ^ 7 := by
    have before := run.squaring (by omega) half (show 6 ≤ 7 by norm_num)
    have square := squared run.fine (by norm_num) (by norm_num) (run.power_ge (by omega))
      (hidden.trans (by norm_num : (1 : ℝ) + (1 / 2) ^ 2 ^ 7 ≤ 1 + (1 / 2) ^ 2 ^ 6))
      (run.step (k + 15 + 7))
    exact square.trans (by norm_num)
  have top : ∀ {j : Nat}, 1 ≤ j → y j ^ n ≤ 1 + (1 / 2) ^ 2 ^ 7 → y (j + 1) ≤ 1 + 6 * u := by
    intro j some high
    refine next_le run.fine (by norm_num) (le_trans ?_ coarse) (run.power_ge some) high (run.step j)
      (run.pos (j + 1)).le
    norm_num
  have bottom : ∀ {j : Nat}, 1 ≤ j → 1 - 7 / 2 * u ≤ y (j + 1) := by
    intro j some
    exact next_ge run.fine (run.pos j) (by linarith [run.power_ge some]) (run.step j)
  exact close run.fine (bottom (by omega)) (top (by omega) hidden) (bottom (by omega))
    (top (by omega) hidden')

theorem falling (run : Run n u y) (k : Nat) {steps : Nat}
    (far : ∀ j < steps, 10 ^ 4 ≤ y (k + j) ^ n) :
    y (k + steps) ≤ y k * (((n - 1) / n) ^ steps * (1 + 3 / 10 ^ 4 / n) ^ steps) := by
  have two := run.fine.two_le
  have ratio : 0 ≤ ((n : ℝ) - 1) / n := div_nonneg (by linarith) n.cast_nonneg
  induction steps with
  | zero => simp
  | succ steps ih =>
    calc
      y (k + (steps + 1)) ≤ y (k + steps) * ((n - 1) / n) * (1 + 3 / 10 ^ 4 / n) :=
        far_le run.fine (run.pos _) (far steps (by omega)) (run.step (k + steps))
      _ ≤ y k * (((n - 1) / n) ^ steps * (1 + 3 / 10 ^ 4 / n) ^ steps) * ((n - 1) / n) *
          (1 + 3 / 10 ^ 4 / n) := by
        have before := ih fun j below => far j (by omega)
        gcongr
      _ = y k * (((n - 1) / n) ^ (steps + 1) * (1 + 3 / 10 ^ 4 / n) ^ (steps + 1)) := by ring

theorem growth_le (some : 0 < n) : ((1 + 3 / 10 ^ 4 / (n : ℝ)) ^ 975) ^ n ≤ 1000 / 707 := by
  have positive : (0 : ℝ) < n := by exact_mod_cast some
  have one : (1 : ℝ) ≤ n := by exact_mod_cast some
  have limit := one_add_pow_mul_le (h := 3 / 10 ^ 4 / (n : ℝ)) (by positivity)
    (by rw [div_le_one positive]; linarith) (975 * n)
  have total : ((975 * n : Nat) : ℝ) * (3 / 10 ^ 4 / n) = 975 * (3 / 10 ^ 4) := by
    push_cast
    field_simp
  rw [total] at limit
  rw [← pow_mul]
  refine le_of_mul_le_mul_right (limit.trans ?_) (show (0 : ℝ) < 1 - 975 * (3 / 10 ^ 4) by norm_num)
  norm_num

theorem near_in_time (run : Run n u y) (early : (y 1 * ((n - 1) / n) ^ 975) ^ n ≤ 7050) :
    ∃ k, 1 ≤ k ∧ k ≤ 976 ∧ y k ^ n ≤ 10 ^ 4 := by
  have two := run.fine.two_le
  have ratio : 0 ≤ ((n : ℝ) - 1) / n := div_nonneg (by linarith) n.cast_nonneg
  by_contra! far
  have fallen : y (1 + 975) ≤
      y 1 * (((n - 1) / n) ^ 975 * (1 + 3 / 10 ^ 4 / n) ^ 975) :=
    run.falling 1 fun j below => (far (1 + j) (by omega) (by omega)).le
  have power : y (1 + 975) ^ n ≤ 7050 * (1000 / 707) := by
    calc
      y (1 + 975) ^ n ≤ (y 1 * (((n - 1) / n) ^ 975 * (1 + 3 / 10 ^ 4 / n) ^ 975)) ^ n :=
        pow_le_pow_left₀ (run.pos _).le fallen n
      _ = (y 1 * ((n - 1) / n) ^ 975) ^ n * ((1 + 3 / 10 ^ 4 / n) ^ 975) ^ n := by
        rw [← mul_assoc, mul_pow _ _ n]
      _ ≤ 7050 * (1000 / 707) :=
        mul_le_mul early (growth_le (by have := run.fine.two; omega)) (by positivity) (by norm_num)
  linarith only [far 976 (by norm_num) le_rfl, power]

theorem mean_nonneg (fine : Fine n u) {x : ℝ} (positive : 0 < x) : 0 ≤ mean n x := by
  have two := fine.two_le
  have ratio : 0 < 1 / x ^ n := by positivity
  exact mul_nonneg positive.le (div_nonneg (by linarith) n.cast_nonneg)

theorem first_le (run : Run n u y) : y 1 ≤ mean n (y 0) * (1 + 4 * (n * u)) := by
  obtain ⟨θ, ρ, quotient, result, value⟩ := run.step 0
  have two := run.fine.two_le
  have tiny := run.fine.tiny
  have smaller := run.fine.unit_le
  have unit := run.fine.positive
  have positive := run.pos 0
  have root : 0 < y 0 ^ n := by positivity
  have share : (n - 1 + (1 + θ) / y 0 ^ n) / n ≤
      (n - 1 + 1 / y 0 ^ n) / n * (1 + 2 * (n * u)) := by
    have grown : (1 + θ) / y 0 ^ n ≤ 1 / y 0 ^ n * (1 + 2 * (n * u)) := by
      rw [one_div_mul_eq_div]
      exact div_le_div_of_nonneg_right (by linarith [le_of_abs_le quotient]) root.le
    have errors := mul_nonneg (show (0 : ℝ) ≤ n - 1 by linarith) (unit.le.trans smaller)
    rw [div_mul_eq_mul_div]
    exact div_le_div_of_nonneg_right (by linarith) n.cast_nonneg
  have factor : (1 + 2 * (n * u)) * (1 + ρ) ≤ 1 + 4 * (n * u) := by
    have scaled := mul_le_mul_of_nonneg_left (show 1 + ρ ≤ 1 + u by linarith [le_of_abs_le result])
      (show 0 ≤ 1 + 2 * (n * u) by linarith)
    have product := mul_le_mul_of_nonneg_right tiny unit.le
    linarith
  calc
    y 1 = y 0 * ((n - 1 + (1 + θ) / y 0 ^ n) / n) * (1 + ρ) := value
    _ ≤ y 0 * ((n - 1 + 1 / y 0 ^ n) / n * (1 + 2 * (n * u))) * (1 + ρ) :=
      mul_le_mul_of_nonneg_right (mul_le_mul_of_nonneg_left share positive.le)
        (by linarith [neg_le_of_abs_le result])
    _ = mean n (y 0) * ((1 + 2 * (n * u)) * (1 + ρ)) := by
      rw [mean]
      ring
    _ ≤ mean n (y 0) * (1 + 4 * (n * u)) :=
      mul_le_mul_of_nonneg_left factor (mean_nonneg run.fine positive)

theorem first_ge (run : Run n u y) : mean n (y 0) * (1 - 3 * (n * u)) ≤ y 1 := by
  obtain ⟨θ, ρ, quotient, result, value⟩ := run.step 0
  have two := run.fine.two_le
  have tiny := run.fine.tiny
  have smaller := run.fine.unit_le
  have unit := run.fine.positive
  have positive := run.pos 0
  have root : 0 < y 0 ^ n := by positivity
  have share : (n - 1 + 1 / y 0 ^ n) / n * (1 - 2 * (n * u)) ≤
      (n - 1 + (1 + θ) / y 0 ^ n) / n := by
    have less : 1 / y 0 ^ n * (1 - 2 * (n * u)) ≤ (1 + θ) / y 0 ^ n := by
      rw [one_div_mul_eq_div]
      exact div_le_div_of_nonneg_right (by linarith [neg_le_of_abs_le quotient]) root.le
    have errors := mul_nonneg (show (0 : ℝ) ≤ n - 1 by linarith) (unit.le.trans smaller)
    rw [div_mul_eq_mul_div]
    exact div_le_div_of_nonneg_right (by linarith) n.cast_nonneg
  have factor : 1 - 3 * (n * u) ≤ (1 - 2 * (n * u)) * (1 + ρ) := by
    have scaled := mul_le_mul_of_nonneg_left
      (show 1 - u ≤ 1 + ρ by linarith [neg_le_of_abs_le result])
      (show 0 ≤ 1 - 2 * (n * u) by linarith)
    have product := mul_nonneg (unit.le.trans smaller) unit.le
    linarith
  calc
    mean n (y 0) * (1 - 3 * (n * u)) ≤ mean n (y 0) * ((1 - 2 * (n * u)) * (1 + ρ)) :=
      mul_le_mul_of_nonneg_left factor (mean_nonneg run.fine positive)
    _ = y 0 * ((n - 1 + 1 / y 0 ^ n) / n * (1 - 2 * (n * u))) * (1 + ρ) := by
      rw [mean]
      ring
    _ ≤ y 0 * ((n - 1 + (1 + θ) / y 0 ^ n) / n) * (1 + ρ) :=
      mul_le_mul_of_nonneg_right (mul_le_mul_of_nonneg_left share positive.le)
        (by linarith [neg_le_of_abs_le result])
    _ = y 1 := value.symm

/-- A run stands in time if the step without errors does not lead too far above the root. -/
theorem stands_in_time (run : Run n u y) (coarse : (1 / 2) ^ 256 ≤ u)
    (early : (mean n (y 0) * ((n - 1) / n) ^ 975) ^ n ≤ 7000) : ∃ k < 1000, Stands (10 * u) y k := by
  have two := run.fine.two_le
  have tiny := run.fine.tiny
  have ratio : 0 ≤ (((n : ℝ) - 1) / n) ^ 975 :=
    pow_nonneg (div_nonneg (by linarith) n.cast_nonneg) 975
  have errors : (1 + 4 * (n * u)) ^ n ≤ 705 / 700 := by
    have limit := one_add_pow_mul_le (h := 4 * (n * u))
      (by linarith [run.fine.unit_le, run.fine.positive]) (by linarith) n
    have square := run.fine.square_small
    have room : 1 ≤ 705 / 700 * (1 - n * (4 * (n * u))) := by linarith
    exact le_of_mul_le_mul_right (limit.trans room) (by linarith)
  have first : (y 1 * ((n - 1) / n) ^ 975) ^ n ≤ 7050 := by
    calc
      (y 1 * ((n - 1) / n) ^ 975) ^ n ≤
          (mean n (y 0) * (1 + 4 * (n * u)) * ((n - 1) / n) ^ 975) ^ n :=
        pow_le_pow_left₀ (mul_nonneg (run.pos 1).le ratio)
          (mul_le_mul_of_nonneg_right run.first_le ratio) n
      _ = (mean n (y 0) * ((n - 1) / n) ^ 975) ^ n * (1 + 4 * (n * u)) ^ n := by
        rw [mul_right_comm, mul_pow _ _ n]
      _ ≤ 7000 * (705 / 700) :=
        mul_le_mul early errors (pow_nonneg (by linarith [run.fine.unit_le, run.fine.positive]) n)
          (by norm_num)
      _ = 7050 := by norm_num
  obtain ⟨k, some, soon, near⟩ := run.near_in_time first
  exact ⟨k + 23, by omega, run.stands_of_near coarse some near⟩

theorem falling_ge (run : Run n u y) (k steps : Nat) :
    y k * (((n - 1) / n) ^ steps * (1 - u) ^ steps) ≤ y (k + steps) := by
  have two := run.fine.two_le
  have ratio : 0 ≤ ((n : ℝ) - 1) / n := div_nonneg (by linarith) n.cast_nonneg
  have least : 0 ≤ 1 - u := by linarith [run.fine.unit_le, run.fine.tiny]
  induction steps with
  | zero => simp
  | succ steps ih =>
    calc
      y k * (((n - 1) / n) ^ (steps + 1) * (1 - u) ^ (steps + 1)) =
          y k * (((n - 1) / n) ^ steps * (1 - u) ^ steps) * ((n - 1) / n) * (1 - u) := by ring
      _ ≤ y (k + steps) * ((n - 1) / n) * (1 - u) := by gcongr
      _ ≤ y (k + (steps + 1)) := far_ge run.fine (run.pos _) (run.step (k + steps))

theorem errors_ge (fine : Fine n u) : 2 / 3 ≤ ((1 - 3 * (n * u)) ^ 1000) ^ n := by
  have unit := fine.positive
  calc
    (2 : ℝ) / 3 ≤ 1 - (1000 * n : Nat) * (3 * (n * u)) := by
      push_cast
      linarith [fine.square_small]
    _ ≤ (1 - 3 * (n * u)) ^ (1000 * n) :=
      one_sub_pow (by linarith [fine.tiny]) (1000 * n)
    _ = ((1 - 3 * (n * u)) ^ 1000) ^ n := pow_mul _ 1000 n

theorem lowest_le (run : Run n u y) {j : Nat} (few : j ≤ 999) :
    mean n (y 0) * ((n - 1) / n) ^ 999 * (1 - 3 * (n * u)) ^ 1000 ≤ y (1 + j) := by
  have two := run.fine.two_le
  have ratio : 0 ≤ ((n : ℝ) - 1) / n := div_nonneg (by linarith) n.cast_nonneg
  have share : ((n : ℝ) - 1) / n ≤ 1 := by
    rw [div_le_one (by linarith)]
    linarith
  have first := run.first_ge
  have least : 0 ≤ 1 - 3 * (n * u) := by linarith [run.fine.tiny]
  have less : 1 - 3 * (n * u) ≤ 1 - u := by linarith [run.fine.unit_le, run.fine.positive]
  have one : 1 - u ≤ 1 := by linarith [run.fine.positive]
  generalize 1 - 3 * (n * u) = e at first least less ⊢
  have rounded : e ^ 999 ≤ (1 - u) ^ j :=
    (pow_le_pow_of_le_one least (less.trans one) few).trans (pow_le_pow_left₀ least less j)
  have fallen : ((n - 1) / n : ℝ) ^ 999 ≤ ((n - 1) / n) ^ j := pow_le_pow_of_le_one ratio share few
  calc
    mean n (y 0) * ((n - 1) / n) ^ 999 * e ^ 1000 =
        mean n (y 0) * e * (((n - 1) / n) ^ 999 * e ^ 999) := by
      rw [pow_succ' e 999, mul_mul_mul_comm]
    _ ≤ y 1 * (((n - 1) / n) ^ j * (1 - u) ^ j) :=
      mul_le_mul first (mul_le_mul fallen rounded (pow_nonneg least _) (pow_nonneg ratio _))
        (mul_nonneg (pow_nonneg ratio _) (pow_nonneg least _)) (run.pos 1).le
    _ ≤ y (1 + j) := run.falling_ge 1 j

theorem still_above (run : Run n u y) (late : 3 ≤ (mean n (y 0) * ((n - 1) / n) ^ 999) ^ n)
    {k : Nat} (some : 1 ≤ k) (early : k ≤ 1000) : 2 ≤ y k ^ n := by
  obtain ⟨j, rfl⟩ := Nat.exists_eq_add_of_le some
  have two := run.fine.two_le
  have errors := errors_ge run.fine
  have lowest := run.lowest_le (show j ≤ 999 by omega)
  have least : 0 ≤ 1 - 3 * (n * u) := by linarith only [run.fine.tiny]
  have ratio : 0 ≤ ((n : ℝ) - 1) / n := div_nonneg (by linarith only [two]) n.cast_nonneg
  have nonneg := mean_nonneg run.fine run.start
  generalize 1 - 3 * (n * u) = e at errors lowest least
  calc
    2 = 3 * (2 / 3 : ℝ) := by norm_num
    _ ≤ (mean n (y 0) * ((n - 1) / n) ^ 999) ^ n * (e ^ 1000) ^ n :=
      mul_le_mul late errors (by norm_num) (le_trans (by norm_num) late)
    _ = (mean n (y 0) * ((n - 1) / n) ^ 999 * e ^ 1000) ^ n := (mul_pow _ _ n).symm
    _ ≤ y (1 + j) ^ n :=
      pow_le_pow_left₀ (mul_nonneg (mul_nonneg nonneg (pow_nonneg ratio _)) (pow_nonneg least _))
        lowest n

theorem seen_above (fine : Fine n u) {x : ℝ} (positive : 0 < x) (above : 2 ≤ x ^ n) :
    10 * u * x < x - 1 := by
  have two := fine.two_le
  have tiny := fine.tiny
  have unit := fine.positive
  by_contra! hidden
  have limit := one_add_pow_mul_le (h := 20 * u) (by linarith)
    (by linarith [fine.unit_le]) n
  have small : x ≤ 1 + 20 * u := by
    have square := mul_le_mul_of_nonneg_left (fine.unit_le.trans tiny) unit.le
    refine le_of_mul_le_mul_right ?_ (show 0 < 1 - 10 * u by linarith [fine.unit_le])
    linarith
  have power : x ^ n ≤ (1 + 20 * u) ^ n := pow_le_pow_left₀ positive.le small n
  have product := mul_le_mul_of_nonneg_right (above.trans power)
    (show 0 ≤ 1 - n * (20 * u) by linarith)
  linarith

/-- A run that the step without errors leads too far above the root stands at none of its first
thousand steps. -/
theorem moves_on (run : Run n u y) (below : y 0 ≤ 1)
    (late : 3 ≤ (mean n (y 0) * ((n - 1) / n) ^ 999) ^ n) {k : Nat} (early : k < 1000) :
    10 * u * y (k + 1) < |y (k + 1) - y k| := by
  rcases Nat.eq_zero_or_pos k with rfl | some
  · have seen := seen_above run.fine (run.pos 1) (run.still_above late le_rfl (by norm_num))
    exact lt_of_lt_of_le (by linarith) (le_abs_self _)
  · rw [abs_sub_comm]
    have moves := still_moves run.fine (run.pos k) (run.still_above late some early.le) (run.step k)
    exact moves.trans_le (le_abs_self _)

end Run

end Formula.Newton
