import Formula.Decimal.Digits
import Mathlib.Data.Nat.Log
import Mathlib.Tactic.IntervalCases
import Mathlib.Tactic.Ring

set_option autoImplicit false

namespace Formula

@[simp] theorem ten_pow_eq (k : Nat) : tenPow k = 10 ^ k := rfl

@[simp] theorem two_pow_eq (k : Nat) : twoPow k = 2 ^ k := rfl

namespace Digits

@[simp] theorem block_eq (k : Nat) : block k = 10 ^ 2 ^ k := rfl

theorem ten_pow_le_two_pow : (10 : Nat) ^ (39 * 9) ≤ 2 ^ (129 * 9 + 5) := by
  simp only [Nat.pow_mul, Nat.pow_add]
  decide

-- Powers compare as their logarithms do, of whose ratio `p / q` is a bound.
theorem pow_le_of_ratio {a b p q k l : Nat} (some : p ≠ 0) (positive : 0 < b)
    (ratio : a ^ p ≤ b ^ q) (few : k * q ≤ p * l) : a ^ k ≤ b ^ l := by
  apply (Nat.pow_le_pow_iff_left some).mp
  calc
    (a ^ k) ^ p = (a ^ p) ^ k := by rw [← Nat.pow_mul, ← Nat.pow_mul, Nat.mul_comm]
    _ ≤ (b ^ q) ^ k := Nat.pow_le_pow_left ratio k
    _ = b ^ (k * q) := by rw [← Nat.pow_mul, Nat.mul_comm]
    _ ≤ b ^ (p * l) := Nat.pow_le_pow_right positive few
    _ = (b ^ l) ^ p := by rw [← Nat.pow_mul, Nat.mul_comm]

theorem guess_below {n : Nat} (positive : n ≠ 0) :
    10 ^ (Nat.log2 n * 301029 / 1000000) ≤ n :=
  le_trans (pow_le_of_ratio (by omega) (by omega) ten_pow_le_two_pow (by omega))
    (Nat.log2_self_le positive)

theorem count_from_bounds (n fuel k : Nat) (low : 10 ^ k ≤ n) (high : n < 10 ^ (k + fuel + 1)) :
    ∃ e, countFrom n fuel k = e + 1 ∧ 10 ^ e ≤ n ∧ n < 10 ^ (e + 1) := by
  induction fuel generalizing k with
  | zero => exact ⟨k, rfl, low, high⟩
  | succ fuel ih =>
    rw [countFrom]
    by_cases inside : n < tenPow (k + 1)
    · rw [if_pos inside]
      exact ⟨k, rfl, low, inside⟩
    · rw [if_neg inside]
      apply ih (k + 1) (Nat.le_of_not_lt inside)
      rwa [show k + 1 + fuel + 1 = k + (fuel + 1) + 1 by omega]

theorem count_eq (n : Nat) : count n = Nat.log 10 n + 1 := by
  by_cases zero : n = 0
  · subst zero
    decide
  · have high : n < 10 ^ (Nat.log2 n * 301029 / 1000000 + (Nat.log2 n + 1) + 1) := calc
      n < 2 ^ (Nat.log2 n + 1) := Nat.lt_log2_self
      _ ≤ 10 ^ (Nat.log2 n + 1) := Nat.pow_le_pow_left (by omega) _
      _ ≤ _ := Nat.pow_le_pow_right (by omega) (by omega)
    obtain ⟨e, found, low, above⟩ := count_from_bounds n _ _ (guess_below zero) high
    rw [count, found, Nat.log_eq_of_pow_le_of_lt_pow low above]

theorem lt_pow_count (n : Nat) : n < 10 ^ count n := by
  rw [count_eq]
  exact Nat.lt_pow_succ_log_self (by omega) n

theorem pow_count_le {n : Nat} (positive : n ≠ 0) : 10 ^ (count n - 1) ≤ n := by
  rw [count_eq]
  exact Nat.pow_log_le_self 10 positive

theorem count_pos (n : Nat) : 0 < count n := by
  rw [count_eq]
  exact Nat.succ_pos _

theorem count_le {n k : Nat} (positive : 0 < k) (below : n < 10 ^ k) : count n ≤ k := by
  rw [count_eq]
  exact Nat.log_lt_of_lt_pow' (by omega) below

theorem count_mono {m n : Nat} (less : m ≤ n) : count m ≤ count n :=
  count_le (count_pos n) (lt_of_le_of_lt less (lt_pow_count n))

theorem strip_below_value (k n : Nat) : n = (stripBelow k n).1 * 10 ^ (stripBelow k n).2 := by
  induction k generalizing n with
  | zero =>
    simp only [stripBelow]
    by_cases zero : n % 10 = 0
    · simp only [zero, if_true, pow_one]
      omega
    · simp [zero]
  | succ k ih =>
    simp only [stripBelow, block_eq]
    by_cases zeros : n % 10 ^ 2 ^ (k + 1) = 0
    · simp only [zeros, if_true, two_pow_eq]
      rw [pow_add 10, ← mul_assoc, ← ih]
      exact (Nat.div_mul_cancel (Nat.dvd_of_mod_eq_zero zeros)).symm
    · simp only [zeros, if_false]
      exact ih n

theorem strip_below_last (k n : Nat) (few : ¬ 10 ^ 2 ^ (k + 1) ∣ n) :
    (stripBelow k n).1 % 10 ≠ 0 := by
  induction k generalizing n with
  | zero =>
    simp only [stripBelow]
    by_cases zero : n % 10 = 0
    · simp only [zero, if_true]
      intro again
      apply few
      simp only [Nat.zero_add, pow_one]
      omega
    · simp [zero]
  | succ k ih =>
    simp only [stripBelow, block_eq]
    by_cases zeros : n % 10 ^ 2 ^ (k + 1) = 0
    · simp only [zeros, if_true]
      -- If as many zeros as were taken off were still there, all that are looked for would be.
      apply ih
      intro more
      apply few
      have doubled : (10 : Nat) ^ 2 ^ (k + 1 + 1) = 10 ^ 2 ^ (k + 1) * 10 ^ 2 ^ (k + 1) := by
        rw [← pow_add, pow_succ 2 (k + 1), Nat.mul_two]
      rw [doubled]
      exact Nat.mul_dvd_of_dvd_div (Nat.dvd_of_mod_eq_zero zeros) more
    · simp only [zeros, if_false]
      exact ih n (mt Nat.mod_eq_zero_of_dvd zeros)

theorem lt_block_level (n : Nat) : n < 10 ^ 2 ^ level n := by
  have third : Nat.log2 n / 3 + 1 < 2 ^ level n := Nat.lt_log2_self
  calc
    n < 2 ^ (Nat.log2 n + 1) := Nat.lt_log2_self
    _ ≤ 2 ^ (3 * 2 ^ level n) := Nat.pow_le_pow_right (by omega) (by omega)
    _ = 8 ^ 2 ^ level n := by rw [Nat.pow_mul]
    _ ≤ 10 ^ 2 ^ level n := Nat.pow_le_pow_left (by omega) _

theorem strip_value (n : Nat) : n = (strip n).1 * 10 ^ (strip n).2 := strip_below_value _ _

theorem strip_last {n : Nat} (positive : n ≠ 0) : (strip n).1 % 10 ≠ 0 := by
  apply strip_below_last
  intro divides
  have least := Nat.le_of_dvd (Nat.pos_of_ne_zero positive) divides
  have more : (10 : Nat) ^ 2 ^ level n ≤ 10 ^ 2 ^ (level n + 1) :=
    Nat.pow_le_pow_right (by omega) (Nat.pow_le_pow_right (by omega) (by omega))
  have := lt_block_level n
  omega

def lastDigits : Nat → Nat → List Char
  | 0, _ => []
  | k + 1, n => lastDigits k (n / 10) ++ [Nat.digitChar (n % 10)]

theorem last_digits_length (k n : Nat) : (lastDigits k n).length = k := by
  induction k generalizing n with
  | zero => rfl
  | succ k ih => rw [lastDigits, List.length_append, ih, List.length_singleton]

theorem last_digits_add (a b n : Nat) :
    lastDigits (a + b) n = lastDigits a (n / 10 ^ b) ++ lastDigits b n := by
  induction b generalizing n with
  | zero => simp [lastDigits]
  | succ b ih =>
    rw [← Nat.add_assoc, lastDigits, ih, Nat.div_div_eq_div_mul, ← Nat.pow_succ', lastDigits,
      List.append_assoc]

theorem last_digits_mod (k n : Nat) : lastDigits k (n % 10 ^ k) = lastDigits k n := by
  induction k generalizing n with
  | zero => rfl
  | succ k ih =>
    have front : n % 10 ^ (k + 1) / 10 = n / 10 % 10 ^ k := by
      rw [Nat.pow_succ', Nat.mod_mul_right_div_self]
    have last : n % 10 ^ (k + 1) % 10 = n % 10 :=
      Nat.mod_mod_of_dvd n (Dvd.intro_left (10 ^ k) rfl)
    rw [lastDigits, front, last, ih, lastDigits]

theorem char_eq {d : Nat} (digit : d < 10) : char d = Nat.digitChar d := by
  interval_cases d <;> rfl

theorem padded_eq (k n : Nat) : padded k n = lastDigits (2 ^ k) n := by
  induction k generalizing n with
  | zero => simp [padded, lastDigits, char_eq (Nat.mod_lt n (by omega : 10 > 0))]
  | succ k ih =>
    rw [padded, ih, ih, block_eq, last_digits_mod, ← last_digits_add, pow_succ, Nat.mul_two]

theorem last_digits_eq {k n : Nat} (positive : 0 < k) (below : n < 10 ^ k) :
    lastDigits k n =
      List.replicate (k - (Nat.toDigits 10 n).length) '0' ++ Nat.toDigits 10 n := by
  induction k generalizing n with
  | zero => omega
  | succ k ih =>
    rw [lastDigits, Nat.toDigits_eq_if (by omega)]
    by_cases small : n < 10
    · rw [if_pos small, Nat.div_eq_of_lt small, Nat.mod_eq_of_lt small]
      have zeros : lastDigits k 0 = List.replicate k '0' := by
        cases k with
        | zero => rfl
        | succ k =>
          rw [ih (by omega) (Nat.pow_pos (by omega)), Nat.toDigits_zero, ← List.replicate_succ']
          rfl
      rw [zeros]
      simp
    · rw [if_neg small]
      have rest : n / 10 < 10 ^ k := by
        rw [pow_succ] at below
        omega
      have more : 0 < k := by
        by_contra none
        rw [Nat.eq_zero_of_not_pos none, pow_zero] at rest
        omega
      rw [ih more rest]
      simp

theorem digit_char_ne_zero {d : Nat} (positive : d ≠ 0) (digit : d < 10) :
    Nat.digitChar d ≠ '0' := by
  interval_cases d <;> first | exact absurd rfl positive | decide

theorem to_digits_head {n : Nat} (positive : n ≠ 0) :
    ∃ c cs, Nat.toDigits 10 n = c :: cs ∧ c ≠ '0' := by
  induction n using Nat.strongRecOn with
  | ind n ih =>
    rw [Nat.toDigits_eq_if (by omega)]
    by_cases small : n < 10
    · rw [if_pos small]
      exact ⟨_, [], rfl, digit_char_ne_zero positive small⟩
    · obtain ⟨c, cs, digits, leading⟩ := ih (n / 10) (by omega) (by omega)
      rw [if_neg small, digits]
      exact ⟨c, _, rfl, leading⟩

theorem of_nat_eq (n : Nat) : ofNat n = Nat.toDigits 10 n := by
  -- The function is unfolded as a whole: applied, its body would be evaluated to be compared.
  suffices same : ofNat = Nat.toDigits 10 from congrFun same n
  delta ofNat
  funext n
  have below : n < 10 ^ 2 ^ (Nat.log2 (count n) + 1) :=
    Nat.lt_of_lt_of_le (lt_pow_count n)
      (Nat.pow_le_pow_right (by omega) (Nat.le_of_lt Nat.lt_log2_self))
  have zeros (j : Nat) (cs : List Char) :
      (List.replicate j '0' ++ cs).dropWhile (· == '0') = cs.dropWhile (· == '0') := by
    rw [List.dropWhile_append_of_pos]
    intro c member
    rw [List.eq_of_mem_replicate member]
    rfl
  rw [padded_eq, last_digits_eq (Nat.pow_pos (by omega)) below, zeros]
  by_cases zero : n = 0
  · subst zero
    rfl
  · obtain ⟨c, cs, digits, leading⟩ := to_digits_head zero
    rw [digits, List.dropWhile_cons_of_neg (by simpa using leading)]

end Digits

end Formula
