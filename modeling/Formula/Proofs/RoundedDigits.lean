import Formula.Decimal.Rounding
import Formula.Proofs.RoundedQuotient

set_option autoImplicit false

namespace Formula

namespace Exact

def HasDigits (digits : Nat) (q : ℚ) : Prop :=
  ∃ m k : Int, |m| < 10 ^ digits ∧ q = m * 10 ^ k

theorem neg_has_digits {digits : Nat} {q : ℚ} (short : HasDigits digits q) :
    HasDigits digits (-q) := by
  obtain ⟨m, k, few, value⟩ := short
  refine ⟨-m, k, by rwa [abs_neg], ?_⟩
  rw [value, Int.cast_neg, neg_mul]

theorem significant_of_pos (digits : Nat) {q : ℚ} (positive : 0 < q) :
    ∃ places : Int, 10 ^ digits ≤ 10 * (q * 10 ^ places) ∧ q * 10 ^ places < 10 ^ digits ∧
      significant digits q = round (q * 10 ^ places) / 10 ^ places := by
  obtain ⟨low, high⟩ := order_of_log positive.ne'
  rw [abs_of_pos positive] at low high
  refine ⟨digits - (Int.log 10 q + 1), ?_, ?_, ?_⟩
  all_goals
    have factor := Decimal.scale_pos (digits - (Int.log 10 q + 1))
  · have power : (10 : ℚ) ^ digits =
        10 * (10 ^ Int.log 10 q * 10 ^ ((digits : Int) - (Int.log 10 q + 1))) := by
      rw [← zpow_natCast, ← zpow_add₀ (by norm_num), ← zpow_one_add₀ (by norm_num)]
      congr 1
      omega
    rw [power]
    gcongr
  · have power : (10 : ℚ) ^ digits =
        10 ^ (Int.log 10 q + 1) * 10 ^ ((digits : Int) - (Int.log 10 q + 1)) := by
      rw [← zpow_natCast, ← zpow_add₀ (by norm_num)]
      congr 1
      omega
    rw [power]
    exact mul_lt_mul_of_pos_right high factor
  · rw [significant, abs_of_pos positive, rounded_of_nonneg positive.le]

theorem positive_has_digits {digits : Nat} (some : 1 ≤ digits) {q : ℚ} (positive : 0 < q) :
    HasDigits digits (significant digits q) := by
  obtain ⟨places, -, high, value⟩ := significant_of_pos digits positive
  have nonneg : 0 ≤ round (q * 10 ^ places) := by
    rw [round_eq]
    exact Int.floor_nonneg.mpr (by positivity)
  have at_most : round (q * 10 ^ places) < 10 ^ digits + 1 := by
    rw [round_eq, Int.floor_lt]
    push_cast
    linarith
  rcases (Int.lt_add_one_iff.mp at_most).lt_or_eq with below | full
  · exact ⟨_, -places, by rwa [abs_of_nonneg nonneg], by rw [value, zpow_neg, div_eq_mul_inv]⟩
  -- Rounded up to the next power of ten, it has one digit.
  · refine ⟨1, digits - places, one_lt_pow₀ (by norm_num) (by omega), ?_⟩
    rw [value, full, zpow_sub₀ (by norm_num), zpow_natCast]
    push_cast
    ring

theorem significant_has_digits {digits : Nat} (some : 1 ≤ digits) (q : ℚ) :
    HasDigits digits (significant digits q) := by
  rcases lt_trichotomy q 0 with negative | rfl | positive
  · rw [← neg_neg q, significant_neg]
    exact neg_has_digits (positive_has_digits some (neg_pos.mpr negative))
  · exact ⟨0, 0, by positivity, by rw [significant_zero]; simp⟩
  · exact positive_has_digits some positive

theorem significant_relative (digits : Nat) (q : ℚ) :
    ∃ ρ : ℚ, |ρ| ≤ 1 / 2 / 10 ^ digits ∧ significant (digits + 1) q = q * (1 + ρ) := by
  by_cases zero : q = 0
  · exact ⟨0, by positivity, by rw [zero, significant_zero, zero_mul]⟩
  · have error := significant_error (Nat.le_add_left 1 digits) q
    rw [Nat.add_sub_cancel] at error
    refine ⟨significant (digits + 1) q / q - 1, ?_, by field_simp; ring⟩
    rw [div_sub_one zero, abs_div, div_le_iff₀ (abs_pos.mpr zero)]
    calc
      |significant (digits + 1) q - q| ≤ |q| / 2 / 10 ^ digits := error
      _ = 1 / 2 / 10 ^ digits * |q| := by ring

theorem integer_of_few {digits : Nat} {m k places : Int} (few : |m| < 10 ^ digits)
    (large : (10 : ℚ) ^ digits - 1 < 10 * (m * 10 ^ k * 10 ^ places)) :
    ∃ n : Int, (m : ℚ) * 10 ^ k * 10 ^ places = n := by
  rw [mul_assoc, ← zpow_add₀ (by norm_num)] at large ⊢
  rcases le_or_gt 0 (k + places) with before | behind
  · obtain ⟨e, form⟩ := Int.eq_ofNat_of_zero_le before
    refine ⟨m * 10 ^ e, ?_⟩
    rw [form]
    push_cast
    rw [zpow_natCast]
  · have positive : (0 : ℚ) < m := by
      by_contra negative
      have product := mul_nonneg (sub_nonneg.mpr (not_lt.mp negative))
        (Decimal.scale_pos (k + places)).le
      have one : (1 : ℚ) ≤ 10 ^ digits := one_le_pow₀ (by norm_num)
      linarith
    have tenth : (10 : ℚ) ^ (k + places) ≤ 10 ^ (-1 : Int) :=
      zpow_le_zpow_right₀ (by norm_num) (by omega)
    have few_digits : (m : ℚ) + 1 ≤ 10 ^ digits := by
      exact_mod_cast lt_of_abs_lt few
    have product := mul_le_mul_of_nonneg_left tenth positive.le
    norm_num at product
    linarith

theorem significant_of_near {digits : Nat} {q t : ℚ} (short : HasDigits digits t) (positive : 0 < t)
    (near : |q - t| ≤ t / 10 ^ (digits + 2)) : significant digits q = t := by
  have scale : (1 : ℚ) ≤ 10 ^ digits := one_le_pow₀ (by norm_num)
  obtain ⟨above, below⟩ := abs_le.mp near
  have small : t / 10 ^ (digits + 2) ≤ t / 100 := by
    rw [pow_add]
    exact div_le_div_of_nonneg_left positive.le (by norm_num) (by linarith)
  obtain ⟨places, low, high, value⟩ := significant_of_pos digits (show 0 < q by linarith)
  have factor := Decimal.scale_pos places
  have most : t * 10 ^ places ≤ 2 * 10 ^ digits := by
    have half : t ≤ 2 * q := by linarith
    linarith [mul_le_mul_of_nonneg_right half factor.le]
  have off : |q * 10 ^ places - t * 10 ^ places| ≤ 1 / 50 := by
    calc
      |q * 10 ^ places - t * 10 ^ places| = |q - t| * 10 ^ places := by
        rw [← sub_mul, abs_mul, abs_of_pos factor]
      _ ≤ t / 10 ^ (digits + 2) * 10 ^ places := mul_le_mul_of_nonneg_right near factor.le
      _ = t * 10 ^ places / 10 ^ (digits + 2) := by ring
      _ ≤ 2 * 10 ^ digits / 10 ^ (digits + 2) := div_le_div_of_nonneg_right most (by positivity)
      _ = 1 / 50 := by rw [pow_add]; field_simp; norm_num
  obtain ⟨off_above, off_below⟩ := abs_le.mp off
  obtain ⟨m, k, few, form⟩ := short
  obtain ⟨n, whole⟩ := integer_of_few few
    (show (10 : ℚ) ^ digits - 1 < 10 * (m * 10 ^ k * 10 ^ places) by rw [← form]; linarith)
  rw [form] at off_above off_below ⊢
  rw [whole] at off_above off_below
  have nearest : round (q * 10 ^ places) = n := by
    rw [round_eq_iff]
    constructor <;> linarith
  rw [value, nearest, ← whole, mul_div_cancel_right₀ _ factor.ne']

end Exact

namespace Decimal

theorem kept_of_has_digits {a b : Decimal} {q : ℚ} (short : Exact.HasDigits quotientDigits q) :
    Exact.kept (a.keptDigits b) q = q := by
  obtain ⟨m, k, few, rfl⟩ := short
  rw [keptDigits]
  by_cases unit : b.isUnit = true
  · rw [if_pos unit, Exact.kept]
  · have digits := hundred_le_significant_digits a.unscaled.natAbs b.unscaled.natAbs
    have shorter : |m| < 10 ^ significantDigits a.unscaled.natAbs b.unscaled.natAbs :=
      lt_of_lt_of_le few (pow_le_pow_right₀ (by norm_num) digits)
    rw [if_neg unit, Exact.kept, Exact.significant_of_few shorter]

theorem cut_value {n cut : Nat} (some : 1 ≤ cut) :
    ((if 5 ≤ n / tenPow (cut - 1) % 10 then n / tenPow (cut - 1) / 10 + 1
        else n / tenPow (cut - 1) / 10 : Nat) : Int) = round ((n : ℚ) / 10 ^ cut) := by
  obtain ⟨k, rfl⟩ := Nat.exists_eq_add_of_le' some
  have positive : 0 < 10 ^ (k + 1) := by positivity
  have holds : Quotient.Holds n (10 ^ (k + 1)) ⟨n / 10 ^ (k + 1), 0, n % 10 ^ (k + 1)⟩ :=
    ⟨by rw [pow_zero, mul_one]; exact Nat.div_add_mod' n _, Nat.mod_lt _ positive⟩
  have rounded := rounded_eq holds
  have next : 10 * (n % 10 ^ (k + 1)) / 10 ^ (k + 1) = n / 10 ^ k % 10 := by
    rw [pow_succ', Nat.mul_div_mul_left _ _ (by norm_num), mul_comm, Nat.mod_mul_right_div_self]
  have kept : n / 10 ^ k / 10 = n / 10 ^ (k + 1) := by
    rw [Nat.div_div_eq_div_mul, pow_succ]
  rw [Quotient.rounded, next, pow_zero, mul_one] at rounded
  rw [Nat.add_sub_cancel, ten_pow_eq, kept, rounded]
  push_cast
  rfl

theorem signed_magnitude_value (d : Decimal) :
    d.toRat = d.unscaled.sign * (d.unscaled.natAbs / 10 ^ d.scale) := by
  rw [toRat, unscaled_signed d, mul_div_assoc]

theorem magnitude_eq (d : Decimal) : |d.toRat| = d.unscaled.natAbs / 10 ^ d.scale := by
  rw [← magnitude_value, mul_div_cancel_right₀ _ (scale_pos d.scale).ne']

theorem cut_precision {d : Decimal} {precision : Nat} (long : precision < d.digits)
    (nonzero : d.unscaled ≠ 0) :
    Exact.significant precision (d.unscaled.natAbs / 10 ^ d.scale : ℚ) =
      (round ((d.unscaled.natAbs : ℚ) / 10 ^ (d.digits - precision)) : ℚ) /
        10 ^ (d.scale - (d.digits - precision : Nat)) := by
  have nonneg : (0 : ℚ) ≤ d.unscaled.natAbs / 10 ^ d.scale := by
    rw [← magnitude_eq]
    exact abs_nonneg _
  have low := le_magnitude nonzero
  have high := magnitude_lt d
  rw [magnitude_eq, ← abs_of_nonneg nonneg] at low high
  have places : (precision : Int) - d.order = d.scale - (d.digits - precision : Nat) := by
    rw [order]
    omega
  have shifted : (d.unscaled.natAbs / 10 ^ d.scale : ℚ) *
      10 ^ (d.scale - (d.digits - precision : Nat)) =
        d.unscaled.natAbs / 10 ^ (d.digits - precision) := by
    rw [zpow_sub₀ (by norm_num), zpow_natCast, div_mul_div_cancel₀ (scale_pos d.scale).ne']
  rw [Exact.significant_of_order low high, Exact.rounded_of_nonneg nonneg, places, shifted]

theorem with_precision_value (d : Decimal) {precision : Nat} (some : 1 ≤ precision) :
    (d.withPrecision precision).toRat = Exact.significant precision d.toRat := by
  rw [withPrecision]
  by_cases long : precision < d.digits
  · have nonzero : d.unscaled ≠ 0 := by
      intro zero
      have single : d.digits ≤ 1 := by
        rw [digits, zero]
        exact Digits.count_le one_pos (by norm_num)
      omega
    rw [if_pos long, signed_magnitude_value d, significant_signed (sign_unit nonzero),
      cut_precision long nonzero, ← cut_value (by omega)]
    dsimp only
    rw [to_rat_mk, Int.cast_mul, mul_div_assoc]
  · have few : |d.unscaled| < 10 ^ precision := by
      rw [Int.abs_eq_natAbs]
      exact_mod_cast lt_of_lt_of_le (Digits.lt_pow_count d.unscaled.natAbs)
        (Nat.pow_le_pow_right (by norm_num) (not_lt.mp long))
    have value : d.toRat = d.unscaled * 10 ^ (-d.scale) := by
      rw [toRat, zpow_neg, div_eq_mul_inv]
    rw [if_neg long, value, Exact.significant_of_few few, to_rat_mk, zpow_add₀ (by norm_num),
      ten_pow_eq, zpow_natCast, zpow_neg, ← div_eq_mul_inv]
    push_cast
    exact mul_div_mul_right _ _ (by positivity)

end Decimal

end Formula
