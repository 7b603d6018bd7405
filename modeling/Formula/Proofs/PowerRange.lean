import Formula.Proofs.ExactPower
import Formula.Proofs.Logarithm
import Mathlib.RingTheory.Int.Basic

set_option autoImplicit false

namespace Formula.Decimal

open Binary Real

theorem of_nat_reaches {n : Nat} (some : 0 < n) : (Binary.ofNat n).Reaches 1 n := by
  have one : (1 : ℝ) ≤ n := by exact_mod_cast some
  apply nearest_reaches (by linarith)
  · rw [Nat.cast_zero, Nat.cast_one]
    linarith
  · rw [Nat.cast_one]
    linarith

theorem reaches_less {b : Binary} {j k : Nat} {r s : ℝ} (reaches : b.Reaches j r)
    (positive : 0 ≤ s) (below : s ≤ r) (small : j ≤ k) (few : k ≤ 2 ^ 48) : b.Reaches k s := by
  have parts : (j : ℝ) ≤ k := by exact_mod_cast small
  have bound : (k : ℝ) ≤ 2 ^ 48 := by exact_mod_cast few
  rw [Reaches] at reaches ⊢
  calc
    s * (1 - k / 2 ^ 48) ≤ s * (1 - j / 2 ^ 48) := by
      apply mul_le_mul_of_nonneg_left _ positive
      linarith
    _ ≤ r * (1 - j / 2 ^ 48) := by
      apply mul_le_mul_of_nonneg_right below
      linarith
    _ ≤ b.toRat := reaches

theorem log_two_ge : 3 / 10 ≤ logb 10 2 := by
  have log := logb_le_logb_of_le (b := 10) (by norm_num) (x := 10 ^ 3) (y := 2 ^ 10) (by norm_num)
    (by norm_num)
  rw [logb_pow, logb_pow, logb_self_eq_one (by norm_num)] at log
  norm_num at log
  linarith

theorem log_ge {n : Nat} (more : 2 ≤ n) : 3 / 10 ≤ logb 10 n :=
  le_trans log_two_ge
    (logb_le_logb_of_le (by norm_num) (by norm_num) (by exact_mod_cast more))

theorem log_two_developed : (Log.develop logPlaces (Log.start 2 1)).whole =
    23850053418134191015272426710 := by decide +kernel

theorem log_two_le : logb 10 2 * 2 ^ 96 ≤ 23850053418134191015272426711 := by
  obtain ⟨height, ready⟩ :=
    Log.develop_start two_pos one_pos logPlaces
  have above := Log.height_le ready
  have height : 2 ^ 96 * logb 10 ((2 : Nat) / (1 : Nat)) ≤
    (Log.develop logPlaces (Log.start 2 1)).height := height
  rw [log_two_developed] at above
  generalize Log.develop logPlaces (Log.start 2 1) = l at height above
  norm_num at height above
  linarith

theorem log_of_two_reaches : log10OfTwo.Reaches 2 (logb 10 2) := by
  have low := log_two_ge
  have high := log_two_le
  apply nearest_reaches (by linarith)
  · rw [ten_pow_eq]
    push_cast
    rw [le_div_iff₀ (by positivity)]
    linarith
  · rw [ten_pow_eq]
    norm_num

theorem log_rounded {n : Nat} (more : 2 ≤ n) :
    logb 10 n * (1 - 8 / 2 ^ 48) ≤ logb 10 (Binary.ofNat n).toRat := by
  have rounded := of_nat_reaches (show 0 < n by omega)
  have large := log_ge more
  have positive : (0 : ℝ) < n := by exact_mod_cast (show 0 < n by omega)
  rw [Reaches, Nat.cast_one] at rounded
  generalize ((Binary.ofNat n).toRat : ℝ) = x at rounded ⊢
  have above : 0 < x := by linarith
  have raised : (n : ℝ) ≤ x * (1 + 2 / 2 ^ 48) := by linarith
  have log := log_raised above positive (by norm_num) raised
  linarith

theorem bit_count_le {n : Nat} (positive : n ≠ 0) : logb 10 n ≤ bitCount n * logb 10 2 := by
  have high : (n : ℝ) ≤ 2 ^ bitCount n := by
    rw [bitCount, if_neg positive]
    exact_mod_cast Nat.lt_log2_self.le
  rw [← logb_pow]
  exact logb_le_logb_of_le (by norm_num) (Nat.cast_pos.mpr (Nat.pos_of_ne_zero positive)) high

theorem log_of_bits_reaches {n : Nat} (more : 2 ≤ n) :
    ((Binary.ofNat (bitCount n)).mul log10OfTwo).Reaches 11 (logb 10 n) := by
  have large := log_ge more
  have two := log_two_ge
  have some : 0 < bitCount n := by
    rw [bitCount, if_neg (by omega)]
    omega
  have bits : (1 : ℝ) ≤ bitCount n := by exact_mod_cast some
  have product := mul_reaches (of_nat_reaches some) log_of_two_reaches (by linarith)
    (by push_cast; linarith) (by linarith) (by push_cast; nlinarith)
  exact reaches_less product (by linarith) (bit_count_le (by omega)) (by norm_num) (by norm_num)

theorem log_of_rounded_reaches {n : Nat} (more : 2 ≤ n) :
    (Binary.ofNat n).log10.Reaches 11 (logb 10 n) := by
  have large := log_ge more
  have rounded := log_rounded more
  have log := log10_reaches (b := Binary.ofNat n) (by linarith)
  generalize logb 10 ((Binary.ofNat n).toRat : ℝ) = y at rounded log
  rw [Reaches] at log ⊢
  push_cast at log ⊢
  linarith

theorem log10_magnitude_reaches {n : Nat} (more : 2 ≤ n) :
    (log10Magnitude n).Reaches 11 (logb 10 n) := by
  rw [log10Magnitude]
  by_cases past : (Binary.ofNat n).overflows = true
  · rw [if_pos past]
    exact log_of_bits_reaches more
  · rw [if_neg past]
    exact log_of_rounded_reaches more

theorem estimate_ge {n m : Nat} (more : 2 ≤ n) (some : 0 < m) :
    (logb 10 n * m * (1 - 13 / 2 ^ 48) + (1 - 1 / 2 ^ 48)) * (1 - 1 / 2 ^ 53) ≤
      (estimatedDigits n m).toRat := by
  have large := log_ge more
  have times : (1 : ℝ) ≤ m := by exact_mod_cast some
  have product := mul_reaches (log10_magnitude_reaches more) (of_nat_reaches some) (by linarith)
    (by push_cast; linarith) (by linarith) (by push_cast; nlinarith)
  have one := of_nat_reaches Nat.one_pos
  have enough : 3 / 10 ≤ logb 10 n * m := by nlinarith
  rw [estimatedDigits]
  generalize (log10Magnitude n).mul (Binary.ofNat m) = p at product ⊢
  generalize Binary.ofNat 1 = o at one ⊢
  rw [Reaches] at product one
  push_cast at product one
  obtain ⟨rounded, -⟩ := next_real (add_next (a := p) (b := o)) (by push_cast; linarith)
  push_cast at rounded
  linarith

theorem max_digits_value : (Binary.ofNat maxDigits).toRat = 250000 := by
  have rounded : Binary.ofNat maxDigits = ⟨8589934592000000, -35⟩ := by decide +kernel
  rw [rounded, Binary.toRat]
  norm_num

theorem power_digits {n m : Nat} (positive : n ≠ 0)
    (reach : (Binary.ofNat maxDigits).less (estimatedDigits n m) = false) :
    Digits.count (n ^ m) ≤ maxDigits := by
  have limit : ((maxDigits : Nat) : ℝ) = 250000 := by norm_num [maxDigits]
  apply Digits.count_le (by decide)
  by_cases more : 2 ≤ n ∧ 0 < m
  -- One digit too many would put the estimate past the limit, whatever it lost by rounding.
  · by_contra long
    have whole : (10 : ℝ) ^ maxDigits ≤ n ^ m := by
      have := not_lt.mp long
      have cast := Nat.cast_le (α := ℝ).mpr this
      rwa [Nat.cast_pow, Nat.cast_pow, Nat.cast_ofNat] at cast
    have log := logb_le_logb_of_le (b := 10) (by norm_num) (by positivity) whole
    rw [logb_pow, logb_pow, logb_self_eq_one (by norm_num), mul_one, limit] at log
    have estimate := estimate_ge more.1 more.2
    rw [← Bool.not_eq_true, Binary.less_iff, max_digits_value, not_lt,
      ← Rat.cast_le (K := ℝ)] at reach
    push_cast at reach
    linarith
  · have one : n ^ m = 1 := by
      rcases not_and_or.mp more with least | none
      · rw [show n = 1 by omega, one_pow]
      · rw [show m = 0 by omega, pow_zero]
    rw [one]
    exact Nat.one_lt_pow (by decide) (by omega)

theorem unit_of_last {d : Decimal} (unit : d.isUnit = true) (last : ¬ (10 : Int) ∣ d.unscaled) :
    d = one := by
  simp only [isUnit, Bool.and_eq_true, decide_eq_true_eq, beq_iff_eq, ten_pow_eq] at unit
  obtain ⟨⟨positive, -⟩, power⟩ := unit
  have flat : d.scale.toNat = 0 := by
    by_contra some
    apply last
    rw [power]
    exact_mod_cast dvd_pow_self 10 some
  rw [flat, pow_zero, Nat.cast_one] at power
  have scale : d.scale = 0 := by omega
  cases d
  simp only at power scale
  rw [power, scale, one]

theorem mul_form {a b : Decimal} (left : ¬ (10 : Int) ∣ a.unscaled)
    (right : ¬ (10 : Int) ∣ b.unscaled) :
    a * b = ⟨a.unscaled * b.unscaled, a.scale + b.scale⟩ := by
  change mul a b = _
  rw [mul]
  by_cases unit : a.isUnit
  · rw [if_pos unit, unit_of_last unit left, one, one_mul, zero_add]
  · rw [if_neg unit]
    by_cases unit' : b.isUnit
    · rw [if_pos unit', unit_of_last unit' right, one, mul_one, add_zero]
    · rw [if_neg unit']

theorem ne_zero_of_last {u : Int} (last : ¬ (10 : Int) ∣ u) : u ≠ 0 :=
  fun nothing => last (nothing ▸ dvd_zero 10)

theorem power_last {u : Int} (last : ¬ (10 : Int) ∣ u) (k : Nat) : ¬ (10 : Int) ∣ u ^ k := by
  intro divides
  apply last
  have two := Int.Prime.dvd_pow' Nat.prime_two (dvd_trans (by norm_num) divides)
  have five := Int.Prime.dvd_pow' Nat.prime_five (dvd_trans (by norm_num) divides)
  push_cast at two five
  omega

theorem mul_powers {u s : Int} (last : ¬ (10 : Int) ∣ u) (k l : Nat) :
    (⟨u ^ k, s * k⟩ : Decimal) * ⟨u ^ l, s * l⟩ = ⟨u ^ (k + l), s * (k + l : Nat)⟩ := by
  rw [mul_form (power_last last k) (power_last last l), pow_add, Nat.cast_add, mul_add]

theorem halved_sum (i j exponent : Nat) :
    i + j * (exponent % 2) + (j + j) * (exponent / 2) = i + j * exponent := by
  conv_rhs => rw [← Nat.mod_add_div exponent 2]
  ring

theorem squaring_form {u s : Int} (last : ¬ (10 : Int) ∣ u) (i j exponent : Nat) :
    squaring ⟨u ^ i, s * i⟩ ⟨u ^ j, s * j⟩ exponent =
      ⟨u ^ (i + j * exponent), s * (i + j * exponent : Nat)⟩ := by
  induction exponent using Nat.strongRecOn generalizing i j with
  | ind exponent ih =>
    rw [squaring]
    by_cases done : exponent = 0
    · rw [if_pos done, done, mul_zero, add_zero]
    · have result : (if exponent % 2 = 1 then (⟨u ^ i, s * i⟩ : Decimal) * ⟨u ^ j, s * j⟩
          else ⟨u ^ i, s * i⟩) =
          ⟨u ^ (i + j * (exponent % 2)), s * (i + j * (exponent % 2) : Nat)⟩ := by
        by_cases odd : exponent % 2 = 1
        · rw [if_pos odd, mul_powers last, odd, mul_one]
        · rw [if_neg odd, show exponent % 2 = 0 by omega, mul_zero, add_zero]
      rw [if_neg done, result]
      by_cases last_bit : exponent = 1
      · rw [if_pos last_bit, ih (exponent / 2) (by omega), last_bit]
        rfl
      · rw [if_neg last_bit, mul_powers last, ih (exponent / 2) (by omega), halved_sum]

theorem exact_power_form {base : Decimal} (last : ¬ (10 : Int) ∣ base.unscaled) (m : Nat) :
    exactPower base m = ⟨base.unscaled ^ m, base.scale * m⟩ := by
  have form := squaring_form (s := base.scale) last 0 1 m
  simp only [pow_zero, pow_one, Nat.cast_zero, mul_zero, Nat.cast_one, mul_one, zero_add,
    one_mul] at form
  exact form

theorem ensured {d result : Decimal} {operation : String}
    (ok : d.ensureInRange operation = .ok result) : result = d ∧ result.inRange = some true := by
  rw [ensureInRange, byRange] at ok
  split at ok <;> cases ok
  exact ⟨rfl, ‹_›⟩

theorem neg_in_range (d : Decimal) : (-d).inRange = d.inRange := by
  have digits : (-d).digits = d.digits := congrArg Digits.count (Int.natAbs_neg d.unscaled)
  rw [inRange, digits]
  rfl

theorem reached_in_range {base : Decimal} {m : Nat} (last : ¬ (10 : Int) ∣ base.unscaled)
    (reach : powerInReach base m = some true) : (exactPower base m).inRange = some true := by
  obtain ⟨-, scale, estimate⟩ := reach_iff.mp reach
  have digits := power_digits (Int.natAbs_ne_zero.mpr (by omega)) estimate
  rw [exact_power_form last, in_range_iff_bounded]
  refine ⟨scale, ?_⟩
  rw [← count_eq_written, Int.natAbs_pow]
  exact digits

theorem normalized_last {base : Decimal} (nonzero : ¬ base.isZero = true) :
    ¬ (10 : Int) ∣ base.normalized.unscaled := by
  rcases normalized_canonical base with zero | last
  · have value := normalized_value base
    rw [zero, zero_value, eq_comm, ← is_zero_iff] at value
    exact absurd value nonzero
  · exact last

theorem integer_power_in_range {base exponent result : Decimal}
    (ok : integerPower base exponent = .ok result) : result.inRange = some true := by
  have computed := integer_power_cases base exponent
  rw [ok] at computed
  generalize outcome : Except.ok result = output at computed
  cases computed with
  | one none =>
    cases outcome
    decide +kernel
  | zero more nothing =>
    cases outcome
    decide +kernel
  | unit unit =>
    cases outcome
    by_cases minus : (base.isNegative && exponent.isOdd) = true
    · rw [if_pos minus]
      decide +kernel
    · rw [if_neg minus]
      decide +kernel
  | reached nonzero word reach =>
    cases outcome
    exact reached_in_range (normalized_last nonzero) reach
  | reciprocal nonzero negative word reach => exact (ensured outcome.symm).2
  | refused => cases outcome
  | overflow => cases outcome

theorem power_in_range {base exponent result : Decimal} (ok : power base exponent = .ok result) :
    result.inRange = some true := by
  rw [power] at ok
  by_cases reciprocal : (base.isZero && exponent.isNegative) = true
  · rw [if_pos reciprocal] at ok
    cases ok
  · rw [if_neg reciprocal] at ok
    by_cases integer : exponent.isInteger
    · rw [if_pos integer] at ok
      exact integer_power_in_range ok
    · rw [if_neg integer] at ok
      cases float : ofFloat? (base.toFloat.pow exponent.toFloat) with
      | none =>
        rw [float] at ok
        obtain ⟨_, -, ok⟩ := bind_ok ok
        obtain ⟨_, -, ok⟩ := bind_ok ok
        cases ok
      | some d =>
        rw [float] at ok
        exact (ensured ok).2

end Formula.Decimal
