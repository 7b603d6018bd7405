import Formula.Proofs.RootConvergence

set_option autoImplicit false

namespace Formula.Decimal.Root

variable {value : Decimal} {degree : Nat}

section Measured

variable {s : ℝ} (root_pos : 0 < s) (root : s ^ degree = value.toRat) (two : 2 ≤ degree)
  (word : degree < 2 ^ 32)

include root_pos root two word in
theorem ended_near (ends : EndsByTest value degree) :
    |((iterate value degree maxIterations (initialGuess value degree)).toRat : ℝ) - s| ≤
      s / 10 ^ 66 := by
  obtain ⟨k, -, pass, -, last⟩ := ends
  have run := measured_run root_pos root two word
  have stands : |measured value degree s (k + 1) - measured value degree s k| ≤
      10 * (1 / 10 ^ 77) * measured value degree s (k + 1) := by
    rcases (passes_iff root_pos k).mp pass with stays | stands
    · rw [stays, sub_self, abs_zero]
      exact mul_nonneg (by norm_num) (run.pos k).le
    · exact stands.le
  have close := Newton.close_to_root run.fine (run.pos k) (run.step k) stands
  have below : (degree : ℝ) < 2 ^ 32 := by exact_mod_cast word
  have small : |measured value degree s (k + 1) - 1| ≤ 1 / 10 ^ 66 := close.trans (by linarith)
  rw [last]
  rwa [measured, div_sub_one root_pos.ne', abs_div, abs_of_pos root_pos, div_le_iff₀ root_pos,
    one_div_mul_eq_div] at small

end Measured

theorem rounded_near {x : ℚ} {s : ℝ} (root_pos : 0 < s) (near : |(x : ℝ) - s| ≤ s / 10 ^ 66) :
    (Exact.significant resultDigits x : ℝ) * (1 - 1 / 10 ^ 63) ≤ s ∧
      s ≤ Exact.significant resultDigits x * (1 + 1 / 10 ^ 63) := by
  obtain ⟨ρ, small, rounded⟩ := Exact.significant_relative 63 x
  obtain ⟨low, high⟩ := abs_le.mp near
  replace small := (Rat.cast_le (K := ℝ)).mpr small
  push_cast at small
  obtain ⟨low', high'⟩ := abs_le.mp small
  rw [resultDigits, rounded]
  push_cast
  generalize (x : ℝ) = y at low high ⊢
  generalize (ρ : ℝ) = e at low' high' ⊢
  have most : y ≤ s * (1 + 1 / 10 ^ 66) := by linarith
  have least : s * (1 - 1 / 10 ^ 66) ≤ y := by linarith
  constructor
  · calc
      y * (1 + e) * (1 - 1 / 10 ^ 63) ≤
          s * (1 + 1 / 10 ^ 66) * (1 + 1 / 2 / 10 ^ 63) * (1 - 1 / 10 ^ 63) :=
        mul_le_mul_of_nonneg_right
          (mul_le_mul most (by linarith) (by linarith) (by positivity)) (by norm_num)
      _ = s * ((1 + 1 / 10 ^ 66) * (1 + 1 / 2 / 10 ^ 63) * (1 - 1 / 10 ^ 63)) := by ring
      _ ≤ s := mul_le_of_le_one_right root_pos.le (by norm_num)
  · calc
      s ≤ s * ((1 - 1 / 10 ^ 66) * (1 - 1 / 2 / 10 ^ 63) * (1 + 1 / 10 ^ 63)) :=
        le_mul_of_one_le_right root_pos.le (by norm_num)
      _ = s * (1 - 1 / 10 ^ 66) * (1 - 1 / 2 / 10 ^ 63) * (1 + 1 / 10 ^ 63) := by ring
      _ ≤ y * (1 + e) * (1 + 1 / 10 ^ 63) :=
        mul_le_mul_of_nonneg_right
          (mul_le_mul least (by linarith) (by norm_num) (by linarith)) (by norm_num)

theorem rounded_exact_root {x t : ℚ} {s : ℝ} (near : |(x : ℝ) - s| ≤ s / 10 ^ 66)
    (root_pos : 0 < s) (short : Exact.HasDigits resultDigits t) (same : s = t) :
    Exact.significant resultDigits x = t := by
  subst same
  refine Exact.significant_of_near short (by exact_mod_cast root_pos) ?_
  rw [resultDigits]
  exact_mod_cast near

/-- What it means for a number to be the root of another one, rounded to so many digits: as good as
a rounding of the real root, and exact if the root has no more digits. -/
structure RootRounded (value : ℚ) (degree : Nat) (r : ℚ) : Prop where
  sign : SignType.sign r = SignType.sign value
  short : Exact.HasDigits resultDigits r
  not_above : (|r| * (1 - 1 / 10 ^ 63)) ^ degree ≤ |value|
  not_below : |value| ≤ (|r| * (1 + 1 / 10 ^ 63)) ^ degree
  exact : ∀ t : ℚ, 0 < t → Exact.HasDigits resultDigits t → |value| = t ^ degree → |r| = t

theorem root_rounded_of_near {a x : ℚ} {s : ℝ} (two : 2 ≤ degree) (root_pos : 0 < s)
    (root : s ^ degree = a) (near : |(x : ℝ) - s| ≤ s / 10 ^ 66) :
    RootRounded a degree (Exact.significant resultDigits x) := by
  obtain ⟨above, below⟩ := rounded_near root_pos near
  have some : degree ≠ 0 := by omega
  have real : (0 : ℝ) < a := root ▸ pow_pos root_pos degree
  have positive : 0 < a := by exact_mod_cast real
  have rounded : (0 : ℝ) < Exact.significant resultDigits x :=
    pos_of_mul_pos_left (root_pos.trans_le below) (by norm_num)
  have pos : 0 < Exact.significant resultDigits x := by exact_mod_cast rounded
  refine ⟨by rw [sign_pos pos, sign_pos positive],
    Exact.significant_has_digits (by decide) x, ?_, ?_, ?_⟩
  · have power := pow_le_pow_left₀ (mul_nonneg rounded.le (by norm_num)) above degree
    rw [root] at power
    rw [abs_of_pos pos, abs_of_pos positive, ← Rat.cast_le (K := ℝ)]
    push_cast
    exact power
  · have power := pow_le_pow_left₀ root_pos.le below degree
    rw [root] at power
    rw [abs_of_pos pos, abs_of_pos positive, ← Rat.cast_le (K := ℝ)]
    push_cast
    exact power
  · intro t some_t short power
    rw [abs_of_pos positive] at power
    rw [abs_of_pos pos]
    refine rounded_exact_root near root_pos short ?_
    refine (pow_left_inj₀ root_pos.le (by exact_mod_cast some_t.le) some).mp ?_
    rw [root, power]
    push_cast
    rfl

theorem RootRounded.neg {a r : ℚ} (rounded : RootRounded a degree r) :
    RootRounded (-a) degree (-r) where
  sign := by rw [Left.sign_neg, Left.sign_neg, rounded.sign]
  short := Exact.neg_has_digits rounded.short
  not_above := by rw [abs_neg, abs_neg]; exact rounded.not_above
  not_below := by rw [abs_neg, abs_neg]; exact rounded.not_below
  exact := by rw [abs_neg, abs_neg]; exact rounded.exact

theorem root_rounded_of_ends (two : 2 ≤ degree) (word : degree < 2 ^ 32) (nonzero : value.toRat ≠ 0)
    (real : value.toRat < 0 → degree % 2 = 1) (ends : EndsByTest value.abs degree) :
    ∃ r, nthRoot value degree = .ok r ∧ RootRounded value.toRat degree r.toRat := by
  have positive := magnitude_pos nonzero
  obtain ⟨s, root_pos, root⟩ := exists_root positive (show degree ≠ 0 by omega)
  have rounded := root_rounded_of_near two root_pos root
    (ended_near root_pos root two word ends)
  obtain ⟨r, returned, result⟩ := nth_root_magnitude two nonzero real
  refine ⟨r, returned, ?_⟩
  rw [abs_value] at rounded
  rw [result]
  by_cases negative : value.toRat < 0
  · rw [if_pos negative, neg_one_mul]
    rw [abs_of_neg negative] at rounded
    have flipped := rounded.neg
    rwa [neg_neg] at flipped
  · rw [if_neg negative, one_mul]
    rwa [abs_of_nonneg (not_lt.mp negative)] at rounded

/-- All roots of degree up to twenty-two are found. -/
theorem roots_accurate (two : 2 ≤ degree) (few : degree ≤ 22) (nonzero : value.toRat ≠ 0)
    (real : value.toRat < 0 → degree % 2 = 1) :
    ∃ r, nthRoot value degree = .ok r ∧ RootRounded value.toRat degree r.toRat := by
  have positive := magnitude_pos nonzero
  have word : degree < 2 ^ 32 := by omega
  exact root_rounded_of_ends two word nonzero real
    (ends_of_early positive two word (fallen_of_few positive two few))

theorem roots_accurate_of_two :
    (∃ r, nthRoot (ofInt 2) 2 = .ok r ∧ RootRounded (ofInt 2).toRat 2 r.toRat) ∧
      ∃ r, nthRoot (ofInt (-8)) 3 = .ok r ∧ RootRounded (ofInt (-8)).toRat 3 r.toRat := by
  have two : (ofInt 2).toRat ≠ 0 := by rw [of_int_value]; norm_num
  have eight : (ofInt (-8)).toRat ≠ 0 := by rw [of_int_value]; norm_num
  refine ⟨roots_accurate le_rfl (by norm_num) two fun negative => ?_,
    roots_accurate (by norm_num) (by norm_num) eight fun _ => rfl⟩
  rw [of_int_value] at negative
  norm_num at negative

end Formula.Decimal.Root
