import Formula.Decimal.Division
import Formula.Proofs.Rational
import Mathlib.Algebra.Order.Round
import Mathlib.Data.Int.Log
import Mathlib.Data.Rat.Floor

set_option autoImplicit false

namespace Formula

namespace Exact

def roundedAt (places : Int) (q : ℚ) : ℚ :=
  (if q < 0 then -1 else 1) * round (|q| * 10 ^ places) / 10 ^ places

def significant (digits : Nat) (q : ℚ) : ℚ := roundedAt (digits - (Int.log 10 |q| + 1)) q

def kept : Option Nat → ℚ → ℚ
  | none, q => q
  | some digits, q => significant digits q

theorem sign_mul_magnitude (q : ℚ) : (if q < 0 then -1 else 1) * |q| = q := by
  by_cases negative : q < 0
  · rw [if_pos negative, abs_of_neg negative]
    ring
  · rw [if_neg negative, abs_of_nonneg (not_lt.mp negative), one_mul]

theorem rounded_exact {places : Int} {q : ℚ} {n : Int} (whole : q * 10 ^ places = n) :
    roundedAt places q = q := by
  have positive := Decimal.scale_pos places
  have magnitude : |q| * 10 ^ places = (|n| : Int) := by
    rw [Int.cast_abs, ← whole, abs_mul, abs_of_pos positive]
  rw [roundedAt, magnitude, round_intCast, ← magnitude, ← mul_assoc, sign_mul_magnitude,
    mul_div_cancel_right₀ _ positive.ne']

theorem rounded_of_nonneg {q : ℚ} (nonneg : 0 ≤ q) (places : Int) :
    roundedAt places q = round (q * 10 ^ places) / 10 ^ places := by
  rw [roundedAt, if_neg nonneg.not_gt, one_mul, abs_of_nonneg nonneg]

theorem rounded_zero (places : Int) : roundedAt places 0 = 0 :=
  rounded_exact (n := 0) (by simp)

theorem rounded_neg (places : Int) (q : ℚ) : roundedAt places (-q) = -roundedAt places q := by
  rcases lt_trichotomy q 0 with negative | rfl | positive
  · rw [roundedAt, roundedAt, abs_neg, if_pos negative, if_neg (by linarith)]
    ring
  · rw [neg_zero, rounded_zero, neg_zero]
  · have opposite : -q < 0 := by linarith
    rw [roundedAt, roundedAt, abs_neg, if_pos opposite, if_neg positive.not_gt]
    ring

theorem rounded_shift (places k : Int) (q : ℚ) :
    roundedAt (places - k) (q * 10 ^ k) = roundedAt places q * 10 ^ k := by
  have positive := Decimal.scale_pos k
  have scaled : |q * 10 ^ k| * 10 ^ (places - k) = |q| * 10 ^ places := by
    rw [abs_mul, abs_of_pos positive, mul_assoc, ← zpow_add₀ (by norm_num)]
    congr 2
    omega
  have sign : q * 10 ^ k < 0 ↔ q < 0 := by
    rw [mul_neg_iff]
    simp [positive, positive.not_gt]
  rw [roundedAt, roundedAt, scaled, zpow_sub₀ (by norm_num)]
  simp only [sign]
  field_simp

theorem rounded_error (places : Int) (q : ℚ) : |roundedAt places q - q| ≤ 1 / 2 / 10 ^ places := by
  have positive := Decimal.scale_pos places
  have near := abs_sub_round (|q| * 10 ^ places)
  have difference : roundedAt places q - q =
      (if q < 0 then -1 else 1) * (round (|q| * 10 ^ places) - |q| * 10 ^ places) /
        10 ^ places := by
    rw [mul_sub, sub_div, ← mul_assoc _ |q|, sign_mul_magnitude,
      mul_div_cancel_right₀ _ positive.ne', roundedAt]
  have unit : |(if q < 0 then -1 else 1 : ℚ)| = 1 := by
    split <;> norm_num
  rw [difference, abs_div, abs_mul, unit, one_mul, abs_of_pos positive, abs_sub_comm]
  exact div_le_div_of_nonneg_right near positive.le

theorem log_of_order {q : ℚ} {e : Int} (low : 10 ^ (e - 1) ≤ q) (high : q < 10 ^ e) :
    Int.log 10 q = e - 1 := by
  have positive : 0 < q := lt_of_lt_of_le (Decimal.scale_pos _) low
  have below : Int.log 10 q < e :=
    (Int.lt_zpow_iff_log_lt (by norm_num) positive).mp (by exact_mod_cast high)
  have above : e - 1 ≤ Int.log 10 q :=
    (Int.zpow_le_iff_le_log (by norm_num) positive).mp (by exact_mod_cast low)
  omega

theorem order_of_log {q : ℚ} (nonzero : q ≠ 0) :
    10 ^ Int.log 10 |q| ≤ |q| ∧ |q| < 10 ^ (Int.log 10 |q| + 1) := by
  have low := Int.zpow_log_le_self (b := 10) (by norm_num) (abs_pos.mpr nonzero)
  have high := Int.lt_zpow_succ_log_self (b := 10) (by norm_num) |q|
  exact ⟨by exact_mod_cast low, by exact_mod_cast high⟩

theorem significant_of_order {digits : Nat} {q : ℚ} {e : Int} (low : 10 ^ (e - 1) ≤ |q|)
    (high : |q| < 10 ^ e) : significant digits q = roundedAt (digits - e) q := by
  rw [significant, log_of_order low high, sub_add_cancel]

theorem significant_zero (digits : Nat) : significant digits 0 = 0 := rounded_zero _

theorem significant_neg (digits : Nat) (q : ℚ) :
    significant digits (-q) = -significant digits q := by
  rw [significant, abs_neg, rounded_neg, significant]

theorem significant_shift (digits : Nat) (k : Int) (q : ℚ) :
    significant digits (q * 10 ^ k) = significant digits q * 10 ^ k := by
  by_cases zero : q = 0
  · rw [zero, zero_mul, significant_zero, zero_mul]
  · obtain ⟨low, high⟩ := order_of_log zero
    have positive := Decimal.scale_pos k
    have order : significant digits (q * 10 ^ k) =
        roundedAt (digits - (Int.log 10 |q| + 1 + k)) (q * 10 ^ k) := by
      apply significant_of_order
      · rw [abs_mul, abs_of_pos positive,
          show Int.log 10 |q| + 1 + k - 1 = Int.log 10 |q| + k by omega, zpow_add₀ (by norm_num)]
        exact mul_le_mul_of_nonneg_right low positive.le
      · rw [abs_mul, abs_of_pos positive, zpow_add₀ (by norm_num)]
        exact mul_lt_mul_of_pos_right high positive
    rw [order, ← sub_sub, rounded_shift, significant]

theorem significant_of_few {digits : Nat} {m : Int} (few : |m| < 10 ^ digits) (k : Int) :
    significant digits (m * 10 ^ k) = m * 10 ^ k := by
  rw [significant_shift]
  by_cases zero : (m : ℚ) = 0
  · rw [zero, significant_zero]
  · obtain ⟨low, -⟩ := order_of_log zero
    have below : (10 : ℚ) ^ Int.log 10 |(m : ℚ)| < 10 ^ (digits : Int) :=
      lt_of_le_of_lt low (by exact_mod_cast few)
    have less : Int.log 10 |(m : ℚ)| < digits := (zpow_lt_zpow_iff_right₀ (by norm_num)).mp below
    obtain ⟨places, left⟩ := Int.eq_ofNat_of_zero_le
      (show 0 ≤ (digits : Int) - (Int.log 10 |(m : ℚ)| + 1) by omega)
    rw [significant, left, rounded_exact (n := m * 10 ^ places)]
    push_cast
    rw [zpow_natCast]

theorem significant_error {digits : Nat} (some : 1 ≤ digits) (q : ℚ) :
    |significant digits q - q| ≤ |q| / 2 / 10 ^ (digits - 1) := by
  by_cases zero : q = 0
  · rw [zero, significant_zero]
    simp
  · obtain ⟨low, -⟩ := order_of_log zero
    have places : (10 : ℚ) ^ ((digits : Int) - (Int.log 10 |q| + 1)) =
        10 ^ (digits - 1) / 10 ^ Int.log 10 |q| := by
      rw [← zpow_natCast, ← zpow_sub₀ (by norm_num), Nat.cast_sub some]
      congr 1
      omega
    calc
      |significant digits q - q| ≤ 1 / 2 / (10 ^ (digits - 1) / 10 ^ Int.log 10 |q|) := by
        rw [← places]
        exact rounded_error _ q
      _ = 10 ^ Int.log 10 |q| / 2 / 10 ^ (digits - 1) := by field_simp
      _ ≤ |q| / 2 / 10 ^ (digits - 1) := by gcongr

end Exact

namespace Decimal

theorem leading_shift_large {num den : Nat} (large : den ≤ num) : leadingShift num den = 0 := by
  have digits := Digits.count_mono large
  rw [leadingShift, Nat.sub_eq_zero_of_le digits]
  simp [large]

theorem leading_shift_small {num den : Nat} (some : num ≠ 0) (small : num < den) :
    den ≤ num * 10 ^ leadingShift num den ∧ num * 10 ^ leadingShift num den < 10 * den := by
  have digits := Digits.count_mono small.le
  have counted := Digits.count_pos num
  -- With as many digits as the divisor has, it is below ten times the divisor, and a tenth of the
  -- divisor is not above it.
  have low : den < 10 * (num * 10 ^ (Digits.count den - Digits.count num)) := calc
    den < 10 ^ Digits.count den := Digits.lt_pow_count den
    _ = 10 * (10 ^ (Digits.count num - 1) * 10 ^ (Digits.count den - Digits.count num)) := by
      rw [← pow_add, ← pow_succ']
      congr 1
      omega
    _ ≤ _ := Nat.mul_le_mul_left _ (Nat.mul_le_mul_right _ (Digits.pow_count_le some))
  have high : num * 10 ^ (Digits.count den - Digits.count num) < 10 * den := calc
    _ < 10 ^ Digits.count num * 10 ^ (Digits.count den - Digits.count num) :=
      Nat.mul_lt_mul_of_pos_right (Digits.lt_pow_count num) (by positivity)
    _ = 10 * 10 ^ (Digits.count den - 1) := by
      rw [← pow_add, ← pow_succ']
      congr 1
      omega
    _ ≤ 10 * den := Nat.mul_le_mul_left _ (Digits.pow_count_le (by omega))
  rw [leadingShift, ten_pow_eq]
  split
  · rw [pow_succ, ← mul_assoc]
    omega
  · omega

structure Quotient.Holds (num den : Nat) (q : Quotient) : Prop where
  value : q.digits * den + q.remainder = num * 10 ^ q.places
  below : q.remainder < den

theorem next_holds {num den : Nat} {q : Quotient} (holds : q.Holds num den) :
    Quotient.Holds num den
      ⟨10 * q.digits + 10 * q.remainder / den, q.places + 1, 10 * q.remainder % den⟩ := by
  constructor
  · have split := Nat.div_add_mod (10 * q.remainder) den
    dsimp only
    rw [pow_succ, ← mul_assoc, ← holds.value]
    linarith
  · exact Nat.mod_lt _ (Nat.zero_lt_of_lt holds.below)

theorem develop_holds {num den : Nat} (steps : Nat) {q : Quotient} (holds : q.Holds num den) :
    (Quotient.develop den steps q).Holds num den := by
  induction steps generalizing q with
  | zero => exact holds
  | succ steps ih =>
    rw [Quotient.develop]
    split
    · exact holds
    · exact ih (next_holds holds)

theorem develop_places (den steps : Nat) (q : Quotient) :
    (Quotient.develop den steps q).places ≤ q.places + steps ∧
      ((Quotient.develop den steps q).remainder = 0 ∨
        (Quotient.develop den steps q).places = q.places + steps) := by
  induction steps generalizing q with
  | zero => exact ⟨le_rfl, .inr rfl⟩
  | succ steps ih =>
    rw [Quotient.develop]
    split
    · rename_i ended
      exact ⟨by omega, .inl ended⟩
    · have further := ih
        ⟨10 * q.digits + 10 * q.remainder / den, q.places + 1, 10 * q.remainder % den⟩
      dsimp only at further
      omega

theorem developed_value {num den : Nat} {q : Quotient} (holds : q.Holds num den) :
    (num : ℚ) / den * 10 ^ q.places = q.digits + q.remainder / den := by
  have positive : (0 : ℚ) < den := by exact_mod_cast Nat.zero_lt_of_lt holds.below
  have value : (q.digits * den + q.remainder : ℚ) = num * 10 ^ q.places := by
    exact_mod_cast holds.value
  field_simp
  linarith

theorem rounded_eq {num den : Nat} {q : Quotient} (holds : q.Holds num den) :
    (q.rounded den : Int) = round ((num : ℚ) / den * 10 ^ q.places) := by
  have positive : (0 : ℚ) < den := by exact_mod_cast Nat.zero_lt_of_lt holds.below
  have half : 5 ≤ 10 * q.remainder / den ↔ den ≤ 2 * q.remainder := by
    rw [Nat.le_div_iff_mul_le (Nat.zero_lt_of_lt holds.below)]
    omega
  have fraction : (q.remainder : ℚ) / den < 1 := by
    rw [div_lt_one positive]
    exact_mod_cast holds.below
  rw [developed_value holds, round_natCast_add, Quotient.rounded]
  by_cases up : 5 ≤ 10 * q.remainder / den
  · have above : (1 : ℚ) / 2 ≤ q.remainder / den := by
      rw [div_le_div_iff₀ two_pos positive]
      exact_mod_cast (by have := half.mp up; omega : 1 * den ≤ q.remainder * 2)
    have one : round ((q.remainder : ℚ) / den) = 1 := by
      rw [round_eq_iff]
      constructor <;> push_cast <;> linarith
    rw [if_pos up, one]
    push_cast
    rfl
  · have under : (q.remainder : ℚ) / den < 1 / 2 := by
      rw [div_lt_div_iff₀ positive two_pos]
      exact_mod_cast (by have := mt half.mpr up; omega : q.remainder * 2 < 1 * den)
    have none : round ((q.remainder : ℚ) / den) = 0 := by
      have nonneg : (0 : ℚ) ≤ q.remainder / den := by positivity
      rw [round_eq_zero_iff]
      constructor <;> linarith
    rw [if_neg up, none, add_zero]

def significantDigits (num den : Nat) : Nat := max quotientDigits (Digits.count (num / den))

theorem whole_and_steps {num : Nat} (some : num ≠ 0) (den : Nat) :
    Digits.count (num * 10 ^ leadingShift num den / den) +
      (quotientDigits - Digits.count (num * 10 ^ leadingShift num den / den)) =
      significantDigits num den := by
  rw [significantDigits]
  rcases le_or_gt den num with large | small
  · rw [leading_shift_large large, pow_zero, mul_one]
    omega
  · obtain ⟨low, high⟩ := leading_shift_small some small
    have whole : num * 10 ^ leadingShift num den / den < 10 := Nat.div_lt_of_lt_mul (by linarith)
    have one : Digits.count (num * 10 ^ leadingShift num den / den) = 1 :=
      le_antisymm (Digits.count_le one_pos (by omega)) (Digits.count_pos _)
    rw [one, Nat.div_eq_of_lt small]
    rfl

theorem whole_ne_zero {num den : Nat} (some : num ≠ 0) (nonzero : den ≠ 0) :
    num * 10 ^ leadingShift num den / den ≠ 0 := by
  have reached : den ≤ num * 10 ^ leadingShift num den := by
    rcases le_or_gt den num with large | small
    · rwa [leading_shift_large large, pow_zero, mul_one]
    · exact (leading_shift_small some small).1
  exact (Nat.div_pos reached (Nat.pos_of_ne_zero nonzero)).ne'

theorem whole_order {num den : Nat} (shift : Nat) (nonzero : den ≠ 0)
    (some : num * 10 ^ shift / den ≠ 0) :
    (10 : ℚ) ^ ((Digits.count (num * 10 ^ shift / den) : Int) - shift - 1) ≤ |(num : ℚ) / den| ∧
      |(num : ℚ) / den| < 10 ^ ((Digits.count (num * 10 ^ shift / den) : Int) - shift) := by
  have positive : (0 : ℚ) < den := by exact_mod_cast Nat.pos_of_ne_zero nonzero
  have low := Digits.pow_count_le some
  have high := Digits.lt_pow_count (num * 10 ^ shift / den)
  have digits := Digits.count_pos (num * 10 ^ shift / den)
  generalize Digits.count (num * 10 ^ shift / den) = d at low high digits ⊢
  rw [Nat.le_div_iff_mul_le (Nat.pos_of_ne_zero nonzero)] at low
  rw [Nat.div_lt_iff_lt_mul (Nat.pos_of_ne_zero nonzero)] at high
  rw [abs_of_nonneg (by positivity)]
  constructor
  · rw [show (d : Int) - shift - 1 = (d - 1 : Nat) - (shift : Nat) by omega,
      zpow_sub₀ (by norm_num), zpow_natCast, zpow_natCast, div_le_div_iff₀ (by positivity) positive]
    exact_mod_cast low
  · rw [zpow_sub₀ (by norm_num), zpow_natCast, zpow_natCast,
      div_lt_div_iff₀ positive (by positivity)]
    exact_mod_cast high

theorem rounded_development {num den places : Nat} {q : Quotient} {result : Nat × Nat}
    (form : result = (q.rounded den, q.places)) (holds : q.Holds num den)
    (few : q.places ≤ places) (finished : q.remainder = 0 ∨ q.places = places) :
    (result.1 : ℚ) / 10 ^ result.2 = Exact.roundedAt places (num / den) := by
  have nonneg : (0 : ℚ) ≤ num / den := by positivity
  rw [form, ← Int.cast_natCast (q.rounded den), rounded_eq holds, ← zpow_natCast,
    ← Exact.rounded_of_nonneg nonneg]
  rcases finished with ended | all
  · have exact : (num : ℚ) / den * 10 ^ (q.places : Int) = (q.digits : Int) := by
      rw [zpow_natCast, developed_value holds, ended, Nat.cast_zero, zero_div, add_zero,
        Int.cast_natCast]
    obtain ⟨more, rfl⟩ := Nat.exists_eq_add_of_le few
    have exact_too : (num : ℚ) / den * 10 ^ ((q.places + more : Nat) : Int) =
        (q.digits * 10 ^ more : Int) := by
      rw [Nat.cast_add, zpow_add₀ (by norm_num), ← mul_assoc, exact, zpow_natCast]
      push_cast
      rfl
    rw [Exact.rounded_exact exact, Exact.rounded_exact exact_too]
  · rw [all]

def developed (num den shift : Nat) : Quotient :=
  Quotient.develop den (quotientDigits - Digits.count (num * tenPow shift / den))
    ⟨num * tenPow shift / den, shift, num * tenPow shift % den⟩

-- Stated of the pair: to compare its parts, the development would be unfolded.
theorem divide_magnitudes_eq (num den : Nat) :
    divideMagnitudes num den =
      ((developed num den (leadingShift num den)).rounded den,
        (developed num den (leadingShift num den)).places) := rfl

theorem developed_holds (num : Nat) {den : Nat} (shift : Nat) (nonzero : den ≠ 0) :
    (developed num den shift).Holds num den :=
  develop_holds _ ⟨Nat.div_add_mod' _ den, Nat.mod_lt _ (Nat.pos_of_ne_zero nonzero)⟩

theorem developed_places (num den shift : Nat) :
    (developed num den shift).places ≤
        shift + (quotientDigits - Digits.count (num * 10 ^ shift / den)) ∧
      ((developed num den shift).remainder = 0 ∨
        (developed num den shift).places =
          shift + (quotientDigits - Digits.count (num * 10 ^ shift / den))) :=
  develop_places den _ _

theorem divide_magnitudes_value {num den : Nat} (some : num ≠ 0) (nonzero : den ≠ 0) :
    ((divideMagnitudes num den).1 : ℚ) / 10 ^ (divideMagnitudes num den).2 =
      Exact.significant (significantDigits num den) (num / den) := by
  obtain ⟨low, high⟩ := whole_order _ nonzero (whole_ne_zero some nonzero)
  obtain ⟨few, finished⟩ := developed_places num den (leadingShift num den)
  rw [Exact.significant_of_order low high, ← whole_and_steps some den,
    rounded_development (divide_magnitudes_eq num den) (developed_holds num _ nonzero) few finished]
  congr 1
  push_cast
  ring

def keptDigits (a b : Decimal) : Option Nat :=
  if b.isUnit then none else some (significantDigits a.unscaled.natAbs b.unscaled.natAbs)

theorem unscaled_signed (d : Decimal) :
    (d.unscaled : ℚ) = d.unscaled.sign * d.unscaled.natAbs := by
  conv_lhs => rw [← Int.sign_mul_natAbs d.unscaled]
  rw [Int.cast_mul, Int.cast_natCast]

theorem sign_unit {n : Int} (nonzero : n ≠ 0) : n.sign = 1 ∨ n.sign = -1 := by
  rcases lt_or_gt_of_ne nonzero with negative | positive
  · exact .inr (Int.sign_eq_neg_one_of_neg negative)
  · exact .inl (Int.sign_eq_one_of_pos positive)

theorem quotient_value (a : Decimal) {b : Decimal} (nonzero : b.unscaled ≠ 0) :
    a.toRat / b.toRat =
      (a.unscaled.sign * b.unscaled.sign : Int) *
        ((a.unscaled.natAbs / b.unscaled.natAbs : ℚ) * 10 ^ (b.scale - a.scale)) := by
  have flip : (b.unscaled.sign : ℚ)⁻¹ = b.unscaled.sign := by
    rcases sign_unit nonzero with plus | minus
    · rw [plus, Int.cast_one, inv_one]
    · rw [minus, Int.cast_neg, Int.cast_one, inv_neg, inv_one]
  have signs : ((a.unscaled.sign * b.unscaled.sign : Int) : ℚ) =
      a.unscaled.sign / b.unscaled.sign := by
    rw [Int.cast_mul, div_eq_mul_inv, flip]
  rw [toRat, toRat, unscaled_signed a, unscaled_signed b, zpow_sub₀ (by norm_num), signs]
  field_simp

theorem significant_signed {s : Int} (unit : s = 1 ∨ s = -1) (digits : Nat) (q : ℚ) :
    Exact.significant digits (s * q) = s * Exact.significant digits q := by
  rcases unit with rfl | rfl
  · rw [Int.cast_one, one_mul, one_mul]
  · rw [Int.cast_neg, Int.cast_one, neg_one_mul, neg_one_mul, Exact.significant_neg]

theorem hundred_le_significant_digits (num den : Nat) : 100 ≤ significantDigits num den :=
  le_max_left quotientDigits _

theorem kept_error (a b : Decimal) (q : ℚ) :
    |Exact.kept (a.keptDigits b) q - q| ≤ |q| / 2 / 10 ^ 99 := by
  rw [keptDigits]
  by_cases unit : b.isUnit = true
  · rw [if_pos unit, Exact.kept, sub_self, abs_zero]
    positivity
  · have digits := hundred_le_significant_digits a.unscaled.natAbs b.unscaled.natAbs
    rw [if_neg unit, Exact.kept]
    refine le_trans (Exact.significant_error (by omega) q) ?_
    gcongr
    · norm_num
    · omega

theorem div_value (a : Decimal) {b : Decimal} (nonzero : b.toRat ≠ 0) :
    (a / b).toRat = Exact.kept (keptDigits a b) (a.toRat / b.toRat) := by
  have divisor : b.unscaled ≠ 0 := mt (to_rat_eq_zero b).mpr nonzero
  change (div a b).toRat = _
  rw [div, keptDigits]
  by_cases unit : b.isUnit = true
  · rw [if_pos (by rw [unit, Bool.or_true]), if_pos unit, Exact.kept, is_unit_value unit, div_one]
  · rw [if_neg unit, Exact.kept]
    by_cases zero : a.isZero = true
    · rw [if_pos (by rw [zero, Bool.true_or]), (is_zero_iff a).mp zero, zero_div,
        Exact.significant_zero]
    · have dividend : a.unscaled ≠ 0 := mt (to_rat_eq_zero a).mpr (mt (is_zero_iff a).mpr zero)
      rw [if_neg (by rw [Bool.or_eq_true]; exact fun either => either.elim zero unit)]
      by_cases same : a.unscaled = b.unscaled
      · have power : a.toRat / b.toRat = (1 : Int) * 10 ^ (b.scale - a.scale) := by
          rw [toRat, toRat, same, div_div_div_cancel_left' _ _ (Int.cast_ne_zero.mpr divisor),
            zpow_sub₀ (by norm_num), Int.cast_one, one_mul]
        have digits := hundred_le_significant_digits a.unscaled.natAbs b.unscaled.natAbs
        have few : |(1 : Int)| < 10 ^ significantDigits a.unscaled.natAbs b.unscaled.natAbs :=
          one_lt_pow₀ (by norm_num) (by omega)
        rw [if_pos same, power, Exact.significant_of_few few, to_rat_mk, div_eq_mul_inv,
          ← zpow_neg, neg_sub]
      · have sign : a.unscaled.sign * b.unscaled.sign = 1 ∨
            a.unscaled.sign * b.unscaled.sign = -1 := by
          rw [← Int.sign_mul]
          exact sign_unit (mul_ne_zero dividend divisor)
        rw [if_neg same, quotient_value a divisor, significant_signed sign,
          Exact.significant_shift, ← divide_magnitudes_value (Int.natAbs_ne_zero.mpr dividend)
            (Int.natAbs_ne_zero.mpr divisor)]
        dsimp only
        generalize divideMagnitudes _ _ = quotient
        rw [to_rat_mk, zpow_add₀ (by norm_num), zpow_natCast, ← neg_sub a.scale, zpow_neg]
        push_cast
        field_simp

end Decimal

end Formula
