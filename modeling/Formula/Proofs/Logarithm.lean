import Formula.Double.Logarithm
import Formula.Proofs.NearestDouble
import Mathlib.Analysis.SpecialFunctions.Log.Base

set_option autoImplicit false

namespace Formula.Binary

open Real

theorem log_ten_ge : 9 / 10 ≤ Real.log 10 := by
  have := one_sub_inv_le_log_of_pos (show (0 : ℝ) < 10 by norm_num)
  norm_num at this
  linarith

theorem log_raised {x y u : ℝ} (positive : 0 < x) (above : 0 < y) (small : 0 ≤ u)
    (raised : y ≤ x * (1 + u)) : logb 10 y ≤ logb 10 x + u * (10 / 9) := by
  have ten := log_ten_ge
  have log := logb_le_logb_of_le (b := 10) (by norm_num) above raised
  rw [logb_mul positive.ne' (by linarith)] at log
  have factor : logb 10 (1 + u) ≤ u * (10 / 9) := by
    have below := log_le_sub_one_of_pos (show 0 < 1 + u by linarith)
    rw [logb, div_le_iff₀ (by linarith)]
    nlinarith
  linarith

theorem le_ceil_div (num : Nat) {den : Nat} (positive : 0 < den) :
    num ≤ ceilDiv num den * den := by
  have split := Nat.div_add_mod (num + den - 1) den
  have small := Nat.mod_lt (num + den - 1) positive
  rw [ceilDiv, Nat.mul_comm]
  omega

theorem ceil_div_lt (num : Nat) {den : Nat} (positive : 0 < den) :
    ceilDiv num den * den < num + den := by
  have split := Nat.div_add_mod (num + den - 1) den
  rw [ceilDiv, Nat.mul_comm]
  omega

theorem ceil_div_le {num den k : Nat} (positive : 0 < den) (bound : num ≤ k * den) :
    ceilDiv num den ≤ k := by
  apply Nat.le_of_lt_succ
  rw [ceilDiv, Nat.div_lt_iff_lt_mul positive, Nat.succ_mul]
  omega

theorem ceil_div_pos {num den : Nat} (some : 0 < num) (positive : 0 < den) :
    0 < ceilDiv num den := by
  have := le_ceil_div num positive
  by_contra none
  rw [Nat.eq_zero_of_not_pos none, Nat.zero_mul] at this
  omega

namespace Log

noncomputable def ratio (mantissa : Nat) : ℝ := (mantissa : ℝ) / logUnit

-- The number whose logarithm is developed, raised to as many squarings as there were steps, is not
-- above what the digits and the mantissa stand for.
noncomputable def height (l : Log) : ℝ := l.whole + logb 10 (ratio l.mantissa)

structure Ready (l : Log) : Prop where
  positive : 0 < l.mantissa
  bounded : l.mantissa ≤ 10 * logUnit

theorem unit_pos : 0 < logUnit := Nat.pow_pos (by omega)

theorem ratio_pos {mantissa : Nat} (positive : 0 < mantissa) : 0 < ratio mantissa :=
  div_pos (Nat.cast_pos.mpr positive) (Nat.cast_pos.mpr unit_pos)

theorem height_le {l : Log} (ready : Ready l) : l.height ≤ l.whole + 1 := by
  have below : ratio l.mantissa ≤ 10 := by
    rw [ratio, div_le_iff₀ (Nat.cast_pos.mpr unit_pos)]
    exact_mod_cast ready.bounded
  have log := logb_le_logb_of_le (b := 10) (by norm_num) (ratio_pos ready.positive) below
  rw [logb_self_eq_one (by norm_num)] at log
  rw [height]
  linarith

theorem start_ready {num den : Nat} (some : 0 < num) (positive : 0 < den) :
    Ready (start num den) := by
  have scale : 0 < den * tenPow (Digits.count (num / den) - 1) :=
    Nat.mul_pos positive (Nat.pow_pos (by omega))
  have below : num * logUnit ≤
      10 * logUnit * (den * tenPow (Digits.count (num / den) - 1)) := by
    obtain ⟨e, count⟩ := Nat.exists_eq_succ_of_ne_zero (Digits.count_pos (num / den)).ne'
    have digits := Digits.lt_pow_count (num / den)
    rw [count, Nat.pow_succ, Nat.div_lt_iff_lt_mul positive] at digits
    rw [count, ten_pow_eq, Nat.succ_sub_one]
    -- The unit is kept from being written out.
    generalize logUnit = unit
    calc
      num * unit ≤ 10 ^ e * 10 * den * unit := Nat.mul_le_mul_right unit digits.le
      _ = 10 * unit * (den * 10 ^ e) := by ring
  exact ⟨ceil_div_pos (Nat.mul_pos some unit_pos) scale, ceil_div_le scale below⟩

theorem start_height {num den : Nat} (some : 0 < num) (positive : 0 < den) :
    logb 10 ((num : ℝ) / den) ≤ (start num den).height := by
  have ready := start_ready some positive
  rw [start] at ready ⊢
  have scale : 0 < den * tenPow (Digits.count (num / den) - 1) :=
    Nat.mul_pos positive (Nat.pow_pos (by omega))
  have cut := le_ceil_div (num * logUnit) scale
  generalize Digits.count (num / den) - 1 = e at cut ready ⊢
  generalize ceilDiv (num * logUnit) (den * tenPow e) = mantissa at cut ready ⊢
  have below : (num : ℝ) / den ≤ 10 ^ e * ratio mantissa := by
    have unit : (0 : ℝ) < logUnit := Nat.cast_pos.mpr unit_pos
    have cut : (num : ℝ) * logUnit ≤ mantissa * (den * 10 ^ e) := by exact_mod_cast cut
    rw [ratio, div_le_iff₀ (Nat.cast_pos.mpr positive), ← mul_div_assoc, div_mul_eq_mul_div,
      le_div_iff₀ unit]
    linarith
  have log := logb_le_logb_of_le (b := 10) (by norm_num)
    (div_pos (Nat.cast_pos.mpr some) (Nat.cast_pos.mpr positive)) below
  rwa [logb_mul (by positivity) (ratio_pos ready.positive).ne', logb_pow,
    logb_self_eq_one (by norm_num), mul_one] at log

theorem square_height {m square : Nat} (some : 0 < m) (cut : m * m ≤ square * logUnit) :
    2 * logb 10 (ratio m) ≤ logb 10 (ratio square) := by
  have unit : (0 : ℝ) < logUnit := Nat.cast_pos.mpr unit_pos
  have squared : ratio m ^ 2 ≤ ratio square := by
    have cut : (m : ℝ) * m ≤ square * logUnit := by exact_mod_cast cut
    rw [ratio, ratio, div_pow, div_le_div_iff₀ (by positivity) unit, pow_two, pow_two]
    nlinarith
  have log := logb_le_logb_of_le (b := 10) (by norm_num) (pow_pos (ratio_pos some) 2) squared
  rwa [logb_pow] at log

theorem tenth_height {m tenth : Nat} (some : 0 < m) (cut : m ≤ tenth * 10) :
    logb 10 (ratio m) ≤ 1 + logb 10 (ratio tenth) := by
  have unit : (0 : ℝ) < logUnit := Nat.cast_pos.mpr unit_pos
  have positive : 0 < tenth := by omega
  have below : ratio m ≤ 10 * ratio tenth := by
    have cut : (m : ℝ) ≤ tenth * 10 := by exact_mod_cast cut
    rw [ratio, ratio, ← mul_div_assoc]
    exact div_le_div_of_nonneg_right (by linarith) unit.le
  have log := logb_le_logb_of_le (b := 10) (by norm_num) (ratio_pos some) below
  rwa [logb_mul (by norm_num) (ratio_pos positive).ne', logb_self_eq_one (by norm_num)] at log

theorem next_height {l : Log} (ready : Ready l) : 2 * l.height ≤ l.next.height ∧ Ready l.next := by
  have cut := le_ceil_div (l.mantissa * l.mantissa) unit_pos
  have some := ceil_div_pos (Nat.mul_pos ready.positive ready.positive) unit_pos
  have hundred : ceilDiv (l.mantissa * l.mantissa) logUnit ≤ 10 * logUnit * 10 := by
    apply ceil_div_le unit_pos
    have squares := Nat.mul_le_mul ready.bounded ready.bounded
    generalize logUnit = unit at squares ⊢
    linarith
  rw [next]
  generalize ceilDiv (l.mantissa * l.mantissa) logUnit = square at cut some hundred ⊢
  have doubled := square_height ready.positive cut
  by_cases small : square < 10 * logUnit
  · rw [if_pos small]
    refine ⟨?_, some, small.le⟩
    rw [height, height]
    push_cast
    linarith
  · rw [if_neg small]
    have tenth := tenth_height some (le_ceil_div square (by omega : 0 < 10))
    refine ⟨?_, ceil_div_pos some (by omega), ceil_div_le (by omega) hundred⟩
    rw [height, height]
    push_cast
    linarith

-- The equations that the definition gives by itself write out the unit.
theorem develop_zero (l : Log) : develop 0 l = l := by
  delta develop
  rfl

theorem develop_succ (steps : Nat) (l : Log) : develop (steps + 1) l = develop steps l.next := by
  delta develop
  rfl

theorem develop_height {l : Log} (ready : Ready l) (steps : Nat) :
    2 ^ steps * l.height ≤ (develop steps l).height ∧ Ready (develop steps l) := by
  induction steps generalizing l with
  | zero =>
    rw [develop_zero, pow_zero, one_mul]
    exact ⟨le_refl _, ready⟩
  | succ steps ih =>
    obtain ⟨doubled, next_ready⟩ := next_height ready
    obtain ⟨later, last_ready⟩ := ih next_ready
    rw [develop_succ]
    refine ⟨le_trans ?_ later, last_ready⟩
    rw [pow_succ, mul_assoc]
    exact mul_le_mul_of_nonneg_left doubled (by positivity)

theorem develop_start {num den : Nat} (some : 0 < num) (positive : 0 < den) (steps : Nat) :
    2 ^ steps * logb 10 ((num : ℝ) / den) ≤ (develop steps (start num den)).height ∧
      Ready (develop steps (start num den)) := by
  obtain ⟨developed, ready⟩ := develop_height (start_ready some positive) steps
  refine ⟨le_trans ?_ developed, ready⟩
  exact mul_le_mul_of_nonneg_left (start_height some positive) (by positivity)

structure Full (l : Log) : Prop where
  whole : logUnit ≤ l.mantissa
  bounded : l.mantissa ≤ 10 * logUnit

theorem ready_of_full {l : Log} (full : Full l) : Ready l :=
  ⟨Nat.lt_of_lt_of_le unit_pos full.whole, full.bounded⟩

theorem one_le_ratio {mantissa : Nat} (whole : logUnit ≤ mantissa) : 1 ≤ ratio mantissa := by
  rw [ratio, one_le_div (Nat.cast_pos.mpr unit_pos)]
  exact_mod_cast whole

theorem whole_le_height {l : Log} (full : Full l) : l.whole ≤ l.height := by
  have log := logb_nonneg (b := 10) (by norm_num) (one_le_ratio full.whole)
  rw [height]
  linarith

noncomputable def cutGain : ℝ := 10 / 9 / logUnit

theorem gain_pos : 0 < cutGain := div_pos (by norm_num) (Nat.cast_pos.mpr unit_pos)

theorem cut_height {mantissa : Nat} {x : ℝ} (some : 0 < mantissa) (one : 1 ≤ x)
    (cut : ratio mantissa ≤ x + 1 / logUnit) : logb 10 (ratio mantissa) ≤ logb 10 x + cutGain := by
  have part : (0 : ℝ) < 1 / logUnit := one_div_pos.mpr (Nat.cast_pos.mpr unit_pos)
  have gain : cutGain = 1 / logUnit * (10 / 9) := by
    rw [cutGain]
    ring
  rw [gain]
  generalize 1 / (logUnit : ℝ) = u at part cut ⊢
  exact log_raised (by linarith) (ratio_pos some) part.le (by nlinarith)

theorem square_height_le {m square : Nat} (whole : logUnit ≤ m) (some : 0 < square)
    (cut : square * logUnit < m * m + logUnit) :
    logb 10 (ratio square) ≤ 2 * logb 10 (ratio m) + cutGain := by
  have unit : (0 : ℝ) < logUnit := Nat.cast_pos.mpr unit_pos
  have one := one_le_ratio whole
  have squared : ratio square ≤ ratio m ^ 2 + 1 / logUnit := by
    have cut : (square : ℝ) * logUnit < m * m + logUnit := by exact_mod_cast cut
    rw [ratio, ratio, div_pow, div_add_div _ _ (by positivity) unit.ne',
      div_le_div_iff₀ unit (by positivity)]
    nlinarith
  have log := cut_height some (one_le_pow₀ one) squared
  rwa [logb_pow] at log

theorem tenth_height_le {m tenth : Nat} (large : 10 * logUnit ≤ m) (some : 0 < tenth)
    (cut : tenth * 10 < m + 10) : logb 10 (ratio tenth) + 1 ≤ logb 10 (ratio m) + cutGain := by
  have unit : (0 : ℝ) < logUnit := Nat.cast_pos.mpr unit_pos
  have ten : 10 ≤ ratio m := by
    rw [ratio, le_div_iff₀ unit]
    exact_mod_cast large
  have below : ratio tenth ≤ ratio m / 10 + 1 / logUnit := by
    have cut : (tenth : ℝ) * 10 < m + 10 := by exact_mod_cast cut
    rw [ratio, ratio, div_right_comm, ← add_div]
    exact div_le_div_of_nonneg_right (by linarith) unit.le
  have log := cut_height some (by linarith) below
  rw [logb_div (by linarith) (by norm_num), logb_self_eq_one (by norm_num)] at log
  linarith

theorem next_height_le {l : Log} (full : Full l) :
    l.next.height ≤ 2 * l.height + 2 * cutGain ∧ Full l.next := by
  have bounded := (next_height (ready_of_full full)).2.bounded
  have reached := le_ceil_div (l.mantissa * l.mantissa) unit_pos
  have cut := ceil_div_lt (l.mantissa * l.mantissa) unit_pos
  have squares := Nat.mul_le_mul full.whole full.whole
  have gain := gain_pos
  rw [next] at bounded ⊢
  generalize ceilDiv (l.mantissa * l.mantissa) logUnit = square at bounded reached cut ⊢
  have whole : logUnit ≤ square :=
    Nat.le_of_mul_le_mul_right (Nat.le_trans squares reached) unit_pos
  have doubled := square_height_le full.whole (Nat.lt_of_lt_of_le unit_pos whole) cut
  by_cases small : square < 10 * logUnit
  · rw [if_pos small] at bounded ⊢
    refine ⟨?_, whole, bounded⟩
    rw [height, height]
    push_cast
    linarith
  · rw [if_neg small] at bounded ⊢
    have large := not_lt.mp small
    have tenth_reached := le_ceil_div square (show 0 < 10 by omega)
    have tenth_cut := ceil_div_lt square (show 0 < 10 by omega)
    generalize ceilDiv square 10 = tenth at bounded tenth_reached tenth_cut ⊢
    have tenth_whole : logUnit ≤ tenth := by omega
    have lowered := tenth_height_le large (Nat.lt_of_lt_of_le unit_pos tenth_whole) tenth_cut
    refine ⟨?_, tenth_whole, bounded⟩
    rw [height, height]
    push_cast
    linarith

theorem develop_height_le {l : Log} (full : Full l) (steps : Nat) :
    (develop steps l).height + 2 * cutGain ≤ 2 ^ steps * (l.height + 2 * cutGain) ∧
      Full (develop steps l) := by
  induction steps generalizing l with
  | zero =>
    rw [develop_zero, pow_zero, one_mul]
    exact ⟨le_rfl, full⟩
  | succ steps ih =>
    obtain ⟨doubled, next_full⟩ := next_height_le full
    obtain ⟨later, last_full⟩ := ih next_full
    rw [develop_succ]
    refine ⟨le_trans later ?_, last_full⟩
    rw [pow_succ, mul_assoc]
    apply mul_le_mul_of_nonneg_left _ (by positivity)
    linarith

theorem start_height_le {num den : Nat} (positive : 0 < den) (one : den ≤ num) :
    (start num den).height ≤ logb 10 ((num : ℝ) / den) + cutGain ∧ Full (start num den) := by
  have bounded := (start_ready (Nat.lt_of_lt_of_le positive one) positive).bounded
  have digits : 10 ^ (Digits.count (num / den) - 1) * den ≤ num := by
    rw [← Nat.le_div_iff_mul_le positive]
    exact Digits.pow_count_le (Nat.div_pos one positive).ne'
  rw [start] at bounded ⊢
  have scale : 0 < den * tenPow (Digits.count (num / den) - 1) :=
    Nat.mul_pos positive (Nat.pow_pos (by omega))
  have reached := le_ceil_div (num * logUnit) scale
  have cut := ceil_div_lt (num * logUnit) scale
  generalize Digits.count (num / den) - 1 = e at bounded digits scale reached cut ⊢
  generalize ceilDiv (num * logUnit) (den * tenPow e) = mantissa at bounded reached cut ⊢
  rw [ten_pow_eq, mul_comm den] at scale reached cut
  have whole : logUnit ≤ mantissa := by
    apply Nat.le_of_mul_le_mul_right _ scale
    rw [mul_comm]
    exact Nat.le_trans (Nat.mul_le_mul_right logUnit digits) reached
  have unit : (0 : ℝ) < logUnit := Nat.cast_pos.mpr unit_pos
  have parts : (0 : ℝ) < 10 ^ e * den := by exact_mod_cast scale
  have divided : 1 ≤ (num : ℝ) / (10 ^ e * den) := by
    rw [one_le_div parts]
    exact_mod_cast digits
  have below : ratio mantissa ≤ (num : ℝ) / (10 ^ e * den) + 1 / logUnit := by
    have cut : (mantissa : ℝ) * (10 ^ e * den) < num * logUnit + 10 ^ e * den := by
      exact_mod_cast cut
    rw [ratio, div_add_div _ _ parts.ne' unit.ne', div_le_div_iff₀ unit (by positivity)]
    nlinarith
  have log := cut_height (Nat.lt_of_lt_of_le unit_pos whole) divided below
  have quotient : (num : ℝ) / den ≠ 0 :=
    div_ne_zero (Nat.cast_ne_zero.mpr (by omega)) (Nat.cast_ne_zero.mpr positive.ne')
  refine ⟨?_, whole, bounded⟩
  rw [mul_comm, ← div_div, logb_div quotient (by positivity), logb_pow,
    logb_self_eq_one (by norm_num), mul_one] at log
  rw [height]
  linarith

theorem develop_start_le {num den : Nat} (positive : 0 < den) (one : den ≤ num) (steps : Nat) :
    (develop steps (start num den)).height ≤
        2 ^ steps * (logb 10 ((num : ℝ) / den) + 3 * cutGain) ∧
      Full (develop steps (start num den)) := by
  obtain ⟨started, full⟩ := start_height_le positive one
  obtain ⟨developed, last_full⟩ := develop_height_le full steps
  have gain := gain_pos
  refine ⟨?_, last_full⟩
  calc
    (develop steps (start num den)).height ≤
        2 ^ steps * ((start num den).height + 2 * cutGain) := by linarith
    _ ≤ 2 ^ steps * (logb 10 ((num : ℝ) / den) + 3 * cutGain) := by
      apply mul_le_mul_of_nonneg_left _ (by positivity)
      linarith

end Log

theorem next_real {b : Binary} {q : ℚ} (next : 1 / 4 ≤ q → b.Next q) (quarter : (1 : ℝ) / 4 ≤ q) :
    q * (1 - 1 / 2 ^ 53) ≤ (b.toRat : ℝ) ∧ (b.toRat : ℝ) ≤ q * (1 + 1 / 2 ^ 53) := by
  have rational : 1 / 4 ≤ q := by
    rw [← Rat.cast_le (K := ℝ)]
    push_cast
    exact quarter
  have low := Rat.cast_le (K := ℝ).mpr (next rational).low
  have high := Rat.cast_le (K := ℝ).mpr (next rational).high
  push_cast at low high
  exact ⟨low, high⟩

def Reaches (b : Binary) (k : Nat) (r : ℝ) : Prop := r * (1 - k / 2 ^ 48) ≤ (b.toRat : ℝ)

theorem rounding_reaches {b : Binary} {k : Nat} {r q : ℝ} (positive : 0 ≤ r)
    (close : r * (1 - k / 2 ^ 48) ≤ q) (rounded : q * (1 - 1 / 2 ^ 53) ≤ (b.toRat : ℝ)) :
    b.Reaches (k + 1) r := by
  have some : (0 : ℝ) ≤ k := Nat.cast_nonneg k
  have parts : 0 ≤ r * k := mul_nonneg positive some
  rw [Reaches]
  push_cast
  calc
    r * (1 - (k + 1) / 2 ^ 48) ≤ r * (1 - k / 2 ^ 48) * (1 - 1 / 2 ^ 53) := by linarith
    _ ≤ q * (1 - 1 / 2 ^ 53) := mul_le_mul_of_nonneg_right close (by norm_num)
    _ ≤ b.toRat := rounded

theorem nearest_reaches {num den k : Nat} {r : ℝ} (positive : 0 ≤ r)
    (close : r * (1 - k / 2 ^ 48) ≤ (num : ℝ) / den) (quarter : 1 / 4 ≤ (num : ℝ) / den) :
    (nearest num den).Reaches (k + 1) r := by
  have rounded := next_real (q := num / den) nearest_next (by push_cast; exact quarter)
  push_cast at rounded
  exact rounding_reaches positive close rounded.1

theorem mul_reaches {a b : Binary} {j k : Nat} {r s : ℝ} (left : a.Reaches j r)
    (right : b.Reaches k s) (positive : 0 ≤ r) (some : 0 ≤ s * (1 - k / 2 ^ 48))
    (positive' : 0 ≤ s) (quarter : 1 / 4 ≤ r * s * (1 - (j + k : Nat) / 2 ^ 48)) :
    (a.mul b).Reaches (j + k + 1) (r * s) := by
  have close : r * s * (1 - (j + k : Nat) / 2 ^ 48) ≤ (a.toRat : ℝ) * b.toRat := by
    have parts : 0 ≤ r * s * (j * k) := by positivity
    have value : (0 : ℝ) ≤ a.toRat := by exact_mod_cast to_rat_nonneg a
    push_cast
    calc
      r * s * (1 - (j + k) / 2 ^ 48) ≤ r * (1 - j / 2 ^ 48) * (s * (1 - k / 2 ^ 48)) := by
        linarith
      _ ≤ a.toRat * (s * (1 - k / 2 ^ 48)) := mul_le_mul_of_nonneg_right left some
      _ ≤ a.toRat * b.toRat := mul_le_mul_of_nonneg_left right value
  have rounded := next_real mul_next (by push_cast; exact le_trans quarter close)
  push_cast at rounded
  exact rounding_reaches (mul_nonneg positive positive') close rounded.1

def Stays (b : Binary) (k : Nat) (r : ℝ) : Prop := (b.toRat : ℝ) ≤ r * (1 + k / 2 ^ 48)

theorem rounding_stays {b : Binary} {k : Nat} {r q : ℝ} (positive : 0 ≤ r) (few : k ≤ 2 ^ 48)
    (close : q ≤ r * (1 + k / 2 ^ 48)) (rounded : (b.toRat : ℝ) ≤ q * (1 + 1 / 2 ^ 53)) :
    b.Stays (k + 1) r := by
  have bound : (k : ℝ) ≤ 2 ^ 48 := by exact_mod_cast few
  have parts : r * k ≤ r * 2 ^ 48 := mul_le_mul_of_nonneg_left bound positive
  rw [Stays]
  push_cast
  calc
    (b.toRat : ℝ) ≤ q * (1 + 1 / 2 ^ 53) := rounded
    _ ≤ r * (1 + k / 2 ^ 48) * (1 + 1 / 2 ^ 53) := mul_le_mul_of_nonneg_right close (by norm_num)
    _ ≤ r * (1 + (k + 1) / 2 ^ 48) := by linarith

theorem nearest_stays {num den k : Nat} {r : ℝ} (positive : 0 ≤ r) (few : k ≤ 2 ^ 48)
    (close : (num : ℝ) / den ≤ r * (1 + k / 2 ^ 48)) (quarter : 1 / 4 ≤ (num : ℝ) / den) :
    (nearest num den).Stays (k + 1) r := by
  have rounded := next_real (q := num / den) nearest_next (by push_cast; exact quarter)
  push_cast at rounded
  exact rounding_stays positive few close rounded.2

theorem mul_stays {a b : Binary} {j k : Nat} {r s : ℝ} (left : a.Stays j r) (right : b.Stays k s)
    (positive : 0 ≤ r) (positive' : 0 ≤ s) (few : j * k ≤ 2 ^ 48) (few' : j + k + 1 ≤ 2 ^ 48)
    (quarter : 1 / 4 ≤ (a.toRat : ℝ) * b.toRat) : (a.mul b).Stays (j + k + 2) (r * s) := by
  have close : (a.toRat : ℝ) * b.toRat ≤ r * s * (1 + (j + k + 1 : Nat) / 2 ^ 48) := by
    have bound : (j : ℝ) * k ≤ 2 ^ 48 := by exact_mod_cast few
    have parts : r * s * (j * k) ≤ r * s * 2 ^ 48 :=
      mul_le_mul_of_nonneg_left bound (mul_nonneg positive positive')
    have value : (0 : ℝ) ≤ b.toRat := by exact_mod_cast to_rat_nonneg b
    push_cast
    calc
      (a.toRat : ℝ) * b.toRat ≤ r * (1 + j / 2 ^ 48) * b.toRat :=
        mul_le_mul_of_nonneg_right left value
      _ ≤ r * (1 + j / 2 ^ 48) * (s * (1 + k / 2 ^ 48)) :=
        mul_le_mul_of_nonneg_left right (by positivity)
      _ ≤ r * s * (1 + (j + k + 1) / 2 ^ 48) := by linarith
  have rounded := next_real mul_next (by push_cast; exact quarter)
  push_cast at rounded
  exact rounding_stays (mul_nonneg positive positive') few' close rounded.2

theorem agrees_near {a b : Binary} (agree : a.agrees b = true) :
    b.toRat * (1 - 1 / 2 ^ 48) ≤ a.toRat ∧ a.toRat ≤ b.toRat * (1 + 1 / 2 ^ 48) := by
  have left : (0 : ℚ) < a.ratio.2 := Nat.cast_pos.mpr (ratio_den_pos a)
  have right : (0 : ℚ) < b.ratio.2 := Nat.cast_pos.mpr (ratio_den_pos b)
  have first : a.toRat * (a.ratio.2 * b.ratio.2) = (a.ratio.1 * b.ratio.2 : Nat) := by
    rw [← ratio_value a, ← mul_assoc, div_mul_cancel₀ _ left.ne', Nat.cast_mul]
  have second : b.toRat * (a.ratio.2 * b.ratio.2) = (b.ratio.1 * a.ratio.2 : Nat) := by
    rw [← ratio_value b, mul_comm (a.ratio.2 : ℚ), ← mul_assoc, div_mul_cancel₀ _ right.ne',
      Nat.cast_mul]
  rw [agrees, decide_eq_true_iff] at agree
  generalize a.ratio.1 * b.ratio.2 = l at agree first
  generalize b.ratio.1 * a.ratio.2 = r at agree second
  have below : r ≤ l + (l - r + (r - l)) := by omega
  have above : l ≤ r + (l - r + (r - l)) := by omega
  generalize l - r + (r - l) = distance at agree below above
  have near : (distance : ℚ) * 2 ^ 48 ≤ r := by exact_mod_cast agree
  have below : (r : ℚ) ≤ l + distance := by exact_mod_cast below
  have above : (l : ℚ) ≤ r + distance := by exact_mod_cast above
  have scaled {x y : ℚ} (le : x * (a.ratio.2 * b.ratio.2) ≤ y * (a.ratio.2 * b.ratio.2)) : x ≤ y :=
    le_of_mul_le_mul_right le (mul_pos left right)
  exact ⟨scaled (by linarith), scaled (by linarith)⟩

theorem two_pow_cast (k : Nat) : ((twoPow k : Nat) : ℝ) = 2 ^ k := by
  rw [two_pow_eq, Nat.cast_pow, Nat.cast_ofNat]

theorem developed_near {b : Binary} (large : 2 / 7 ≤ logb 10 b.toRat) :
    ∃ num den : Nat, b.developedLog10 = nearest num den ∧
      logb 10 b.toRat - 1 / 2 ^ 97 ≤ (num : ℝ) / den ∧
      (num : ℝ) / den ≤ logb 10 b.toRat + 1 / 2 ^ 96 := by
  have value : (b.toRat : ℝ) = b.ratio.1 / b.ratio.2 := by
    rw [← ratio_value b]
    push_cast
    rfl
  have positive := ratio_den_pos b
  have one : b.ratio.2 ≤ b.ratio.1 := by
    by_contra small
    have below : (b.toRat : ℝ) ≤ 1 := by
      rw [value, div_le_one (Nat.cast_pos.mpr positive)]
      exact_mod_cast (not_le.mp small).le
    have log := logb_nonpos (b := 10) (by norm_num) (by exact_mod_cast to_rat_nonneg b) below
    linarith
  have low := (Log.develop_start (Nat.lt_of_lt_of_le positive one) positive logPlaces).1
  obtain ⟨high, full⟩ := Log.develop_start_le positive one logPlaces
  rw [← value] at low high
  have places : ((twoPow logPlaces : Nat) : ℝ) = 2 ^ 96 := two_pow_cast logPlaces
  have more_places : ((twoPow (logPlaces + 1) : Nat) : ℝ) = 2 ^ 97 := two_pow_cast (logPlaces + 1)
  have low : 2 ^ 96 * logb 10 (b.toRat : ℝ) ≤
      (Log.develop logPlaces (Log.start b.ratio.1 b.ratio.2)).height := low
  have high : (Log.develop logPlaces (Log.start b.ratio.1 b.ratio.2)).height ≤
      2 ^ 96 * (logb 10 (b.toRat : ℝ) + 3 * Log.cutGain) := high
  have gain : 3 * Log.cutGain ≤ 1 / 2 ^ 97 := by
    rw [Log.cutGain, logUnit, ten_pow_eq]
    norm_num
  have above := Log.height_le (Log.ready_of_full full)
  have below := Log.whole_le_height full
  rw [developedLog10]
  generalize Log.develop logPlaces (Log.start b.ratio.1 b.ratio.2) = l at low high above below ⊢
  generalize logb 10 (b.toRat : ℝ) = y at large low high ⊢
  by_cases whole : l.mantissa = logUnit
  · have flat : l.height = l.whole := by
      rw [Log.height, whole, Log.ratio, div_self (Nat.cast_ne_zero.mpr Log.unit_pos.ne'), logb_one,
        add_zero]
    rw [if_pos whole]
    refine ⟨_, _, rfl, ?_, ?_⟩
    · rw [places, le_div_iff₀ (by positivity)]
      linarith
    · rw [places, div_le_iff₀ (by positivity)]
      linarith
  · rw [if_neg whole]
    refine ⟨_, _, rfl, ?_, ?_⟩
    · rw [more_places, le_div_iff₀ (by positivity)]
      push_cast
      linarith
    · rw [more_places, div_le_iff₀ (by positivity)]
      push_cast
      linarith

theorem developed_reaches {b : Binary} (large : 2 / 7 ≤ logb 10 b.toRat) :
    b.developedLog10.Reaches 2 (logb 10 b.toRat) := by
  obtain ⟨num, den, form, near, -⟩ := developed_near large
  rw [form]
  apply nearest_reaches (by linarith)
  · refine le_trans ?_ near
    push_cast
    linarith
  · linarith

theorem log10_reaches {b : Binary} (large : 2 / 7 ≤ logb 10 b.toRat) :
    b.log10.Reaches 3 (logb 10 b.toRat) := by
  have developed := developed_reaches large
  rw [log10]
  generalize b.developedLog10 = l at developed ⊢
  rw [Reaches] at developed ⊢
  push_cast at developed ⊢
  by_cases agree : (ofFloat b.toFloat.log10).agrees l = true
  · rw [if_pos agree]
    have near := Rat.cast_le (K := ℝ).mpr (agrees_near agree).1
    push_cast at near
    linarith
  · rw [if_neg agree]
    linarith

theorem developed_stays {b : Binary} (large : 2 / 7 ≤ logb 10 b.toRat) :
    b.developedLog10.Stays 2 (logb 10 b.toRat) := by
  obtain ⟨num, den, form, near, close⟩ := developed_near large
  rw [form]
  apply nearest_stays (by linarith) (by norm_num)
  · refine le_trans close ?_
    push_cast
    linarith
  · linarith

theorem log10_stays {b : Binary} (large : 2 / 7 ≤ logb 10 b.toRat) :
    b.log10.Stays 4 (logb 10 b.toRat) := by
  have developed := developed_stays large
  rw [log10]
  generalize b.developedLog10 = l at developed ⊢
  rw [Stays] at developed ⊢
  push_cast at developed ⊢
  by_cases agree : (ofFloat b.toFloat.log10).agrees l = true
  · rw [if_pos agree]
    have near := Rat.cast_le (K := ℝ).mpr (agrees_near agree).2
    push_cast at near
    linarith
  · rw [if_neg agree]
    linarith

end Formula.Binary
