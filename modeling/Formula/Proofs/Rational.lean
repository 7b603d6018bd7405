import Formula.Decimal
import Formula.Proofs.Digits
import Mathlib.Algebra.Order.Field.Power
import Mathlib.Data.Rat.Lemmas
import Mathlib.Tactic.FieldSimp
import Mathlib.Tactic.Linarith
import Mathlib.Tactic.Positivity

set_option autoImplicit false

namespace Formula

def Exact.truncated (q : ℚ) : Int := q.num.tdiv q.den

namespace Decimal

def toRat (d : Decimal) : ℚ := d.unscaled / 10 ^ d.scale

theorem to_rat_mk (unscaled scale : Int) :
    toRat ⟨unscaled, scale⟩ = unscaled / 10 ^ scale := rfl

theorem scale_pos (scale : Int) : (0 : ℚ) < 10 ^ scale := zpow_pos (by norm_num) scale

theorem to_rat_mul_pow (d : Decimal) : d.toRat * 10 ^ d.scale = d.unscaled :=
  div_mul_cancel₀ _ (scale_pos d.scale).ne'

@[simp] theorem to_rat_eq_zero (d : Decimal) : d.toRat = 0 ↔ d.unscaled = 0 := by
  rw [toRat, div_eq_zero_iff, Int.cast_eq_zero]
  simp [(scale_pos d.scale).ne']

@[simp] theorem to_rat_pos (d : Decimal) : 0 < d.toRat ↔ 0 < d.unscaled := by
  rw [toRat, div_pos_iff_of_pos_right (scale_pos d.scale), Int.cast_pos]

@[simp] theorem to_rat_neg (d : Decimal) : d.toRat < 0 ↔ d.unscaled < 0 := by
  rw [toRat, div_neg_iff, Int.cast_lt_zero]
  simp [scale_pos d.scale, (scale_pos d.scale).not_gt]

theorem is_zero_iff (d : Decimal) : d.isZero = true ↔ d.toRat = 0 := by
  simp [isZero]

theorem is_negative_iff (d : Decimal) : d.isNegative = true ↔ d.toRat < 0 := by
  simp [isNegative]

@[simp] theorem zero_value : zero.toRat = 0 := by simp [zero]

theorem of_int_value (n : Int) : (ofInt n).toRat = n := by
  rw [ofInt, to_rat_mk, zpow_zero, div_one]

@[simp] theorem one_value : one.toRat = 1 := by simp [one, toRat]

theorem neg_value (d : Decimal) : (-d).toRat = -d.toRat := by
  change toRat ⟨-d.unscaled, d.scale⟩ = _
  rw [to_rat_mk, Int.cast_neg, neg_div, toRat]

theorem abs_value (d : Decimal) : d.abs.toRat = |d.toRat| := by
  change toRat ⟨d.unscaled.natAbs, d.scale⟩ = _
  rw [to_rat_mk, ← Int.abs_eq_natAbs, Int.cast_abs, toRat, abs_div, abs_of_pos (scale_pos d.scale)]

theorem unscaled_at_value (d : Decimal) {scale : Int} (more : d.scale ≤ scale) :
    (d.unscaledAt scale : ℚ) = d.toRat * 10 ^ scale := by
  have shift : (10 : ℚ) ^ scale = 10 ^ d.scale * 10 ^ (scale - d.scale).toNat := by
    rw [← zpow_natCast, Int.toNat_of_nonneg (by omega), ← zpow_add₀ (by norm_num)]
    congr 1
    omega
  rw [shift, ← mul_assoc, to_rat_mul_pow, unscaledAt, ten_pow_eq]
  push_cast
  rfl

theorem of_unscaled_at (d : Decimal) {scale : Int} (more : d.scale ≤ scale) :
    (d.unscaledAt scale : ℚ) / 10 ^ scale = d.toRat := by
  rw [unscaled_at_value d more, mul_div_cancel_right₀ _ (scale_pos scale).ne']

theorem unscaled_at_scale (d : Decimal) : d.unscaledAt d.scale = d.unscaled := by
  rw [unscaledAt, sub_self, ten_pow_eq, Int.toNat_zero, pow_zero, Nat.cast_one, mul_one]

theorem unscaled_at_zero {d : Decimal} (whole : d.scale ≤ 0) : (d.unscaledAt 0 : ℚ) = d.toRat := by
  rw [unscaled_at_value d whole, zpow_zero, mul_one]

theorem left_le_common (a b : Decimal) : a.scale ≤ a.commonScale b := by
  rw [commonScale]
  split <;> omega

theorem right_le_common (a b : Decimal) : b.scale ≤ a.commonScale b := by
  rw [commonScale]
  split <;> omega

theorem add_value (a b : Decimal) : (a + b).toRat = a.toRat + b.toRat := by
  change toRat ⟨a.unscaledAt (a.commonScale b) + b.unscaledAt (a.commonScale b), _⟩ = _
  rw [to_rat_mk, Int.cast_add, add_div, of_unscaled_at a (left_le_common a b),
    of_unscaled_at b (right_le_common a b)]

theorem sub_value (a b : Decimal) : (a - b).toRat = a.toRat - b.toRat := by
  change (sub a b).toRat = _
  rw [sub]
  by_cases right : b.isZero
  · rw [if_pos right, (is_zero_iff b).mp right, sub_zero]
  · rw [if_neg right]
    by_cases left : a.isZero
    · rw [if_pos left, (is_zero_iff a).mp left, zero_sub]
      exact neg_value b
    · rw [if_neg left]
      dsimp only
      rw [to_rat_mk, Int.cast_sub, sub_div, of_unscaled_at a (left_le_common a b),
        of_unscaled_at b (right_le_common a b)]

theorem is_unit_value {d : Decimal} (unit : d.isUnit = true) : d.toRat = 1 := by
  simp only [isUnit, Bool.and_eq_true, decide_eq_true_eq, beq_iff_eq, ten_pow_eq] at unit
  obtain ⟨⟨positive, -⟩, power⟩ := unit
  rw [toRat, power, div_eq_one_iff_eq (scale_pos d.scale).ne']
  push_cast
  rw [← zpow_natCast, Int.toNat_of_nonneg positive]

theorem mul_value (a b : Decimal) : (a * b).toRat = a.toRat * b.toRat := by
  change (mul a b).toRat = _
  rw [mul]
  by_cases left : a.isUnit
  · rw [if_pos left, is_unit_value left, one_mul]
  · rw [if_neg left]
    by_cases right : b.isUnit
    · rw [if_pos right, is_unit_value right, mul_one]
    · rw [if_neg right, to_rat_mk, Int.cast_mul, zpow_add₀ (by norm_num), toRat, toRat,
        div_mul_div_comm]

theorem truncated_div (a : Int) {b : Int} (nonzero : b ≠ 0) :
    Exact.truncated ((a : ℚ) / b) = a.tdiv b := by
  -- Both integers are those of the reduced fraction times a factor, which may be negative.
  obtain ⟨c, num, den⟩ := Rat.exists_eq_mul_div_num_and_eq_mul_div_den a nonzero
  generalize (a : ℚ) / b = q at num den ⊢
  have factor : c ≠ 0 := by
    rintro rfl
    exact nonzero (by rw [den, zero_mul])
  rw [Exact.truncated, num, den]
  rcases lt_or_gt_of_ne factor with negative | positive
  · rw [← Int.neg_tdiv_neg (a := c * q.num), ← Int.neg_mul, ← Int.neg_mul,
      Int.mul_tdiv_mul_of_pos _ _ (by omega)]
  · rw [Int.mul_tdiv_mul_of_pos _ _ positive]

theorem rem_value (a : Decimal) {b : Decimal} (nonzero : b.toRat ≠ 0) :
    (a % b).toRat = a.toRat - b.toRat * Exact.truncated (a.toRat / b.toRat) := by
  have left := unscaled_at_value a (left_le_common a b)
  have right := unscaled_at_value b (right_le_common a b)
  have common := (scale_pos (a.commonScale b)).ne'
  have divisor : b.unscaledAt (a.commonScale b) ≠ 0 := by
    rw [← Int.cast_ne_zero (α := ℚ), right]
    exact mul_ne_zero nonzero common
  change toRat ⟨Int.tmod (a.unscaledAt (a.commonScale b)) (b.unscaledAt (a.commonScale b)), _⟩ = _
  rw [← mul_div_mul_right a.toRat b.toRat common, ← left, ← right, truncated_div _ divisor,
    to_rat_mk, Int.tmod_def, Int.cast_sub, Int.cast_mul, left, right, sub_div, mul_right_comm,
    mul_div_cancel_right₀ _ common, mul_div_cancel_right₀ _ common]

def Canonical (d : Decimal) : Prop := d = zero ∨ ¬ (10 : Int) ∣ d.unscaled

theorem normalized_value (d : Decimal) : d.normalized.toRat = d.toRat := by
  rw [normalized]
  by_cases nothing : d.unscaled = 0
  · rw [if_pos nothing, zero_value, (to_rat_eq_zero d).mpr nothing]
  · have magnitude := Digits.strip_value d.unscaled.natAbs
    generalize Digits.strip d.unscaled.natAbs = stripped at magnitude ⊢
    have signed : (d.unscaled : ℚ) = d.unscaled.sign * (stripped.1 * 10 ^ stripped.2) := by
      conv_lhs => rw [← Int.sign_mul_natAbs d.unscaled, magnitude]
      push_cast
      rfl
    rw [if_neg nothing, to_rat_mk, toRat, signed, zpow_sub₀ (by norm_num), zpow_natCast,
      div_div_eq_mul_div, Int.cast_mul, Int.cast_natCast, mul_assoc]

theorem normalized_canonical (d : Decimal) : Canonical d.normalized := by
  rw [normalized]
  by_cases nothing : d.unscaled = 0
  · rw [if_pos nothing]
    exact .inl rfl
  · rw [if_neg nothing]
    right
    have last := Digits.strip_last (Int.natAbs_ne_zero.mpr nothing)
    intro divides
    apply last
    apply Nat.mod_eq_zero_of_dvd
    rwa [← Int.natAbs_dvd_natAbs, Int.natAbs_mul, Int.natAbs_sign_of_ne_zero nothing,
      one_mul] at divides

-- The form with the smaller scale would put zeros behind the other, and the last digit is none.
theorem eq_of_last_digit {a b : Decimal} (last : ¬ (10 : Int) ∣ b.unscaled)
    (scales : a.scale ≤ b.scale) (same : a.toRat = b.toRat) : a = b := by
  have extended : a.unscaled * 10 ^ (b.scale - a.scale).toNat = b.unscaled := by
    have left := unscaled_at_value a scales
    rw [same, to_rat_mul_pow, Int.cast_inj, unscaledAt, ten_pow_eq] at left
    exact_mod_cast left
  have none : (b.scale - a.scale).toNat = 0 := by
    by_contra some
    exact last (extended ▸ Dvd.dvd.mul_left (dvd_pow_self 10 some) a.unscaled)
  rw [none, pow_zero, mul_one] at extended
  have equal : a.scale = b.scale := by omega
  cases a
  cases b
  simp_all

theorem canonical_unique {a b : Decimal} (left : Canonical a) (right : Canonical b)
    (same : a.toRat = b.toRat) : a = b := by
  rcases left with rfl | left
  · rcases right with rfl | right
    · rfl
    · rw [zero_value, eq_comm, to_rat_eq_zero] at same
      exact absurd (same ▸ dvd_zero 10) right
  · rcases right with rfl | right
    · rw [zero_value, to_rat_eq_zero] at same
      exact absurd (same ▸ dvd_zero 10) left
    · rcases le_total a.scale b.scale with scales | scales
      · exact eq_of_last_digit right scales same
      · exact (eq_of_last_digit left scales same.symm).symm

theorem normalized_of_last {d : Decimal} (last : ¬ (10 : Int) ∣ d.unscaled) : d.normalized = d :=
  canonical_unique (normalized_canonical d) (.inr last) (normalized_value d)

theorem normalized_eq_iff (a b : Decimal) : a.normalized = b.normalized ↔ a.toRat = b.toRat := by
  constructor
  · intro same
    rw [← normalized_value a, same, normalized_value]
  · intro same
    apply canonical_unique (normalized_canonical a) (normalized_canonical b)
    rw [normalized_value, normalized_value, same]

theorem same_number_iff (a b : Decimal) : a.sameNumber b = true ↔ a.toRat = b.toRat := by
  rw [sameNumber, beq_iff_eq, normalized_eq_iff]

theorem magnitude_value (d : Decimal) : |d.toRat| * 10 ^ d.scale = d.unscaled.natAbs := by
  rw [← abs_of_pos (scale_pos d.scale), ← abs_mul, to_rat_mul_pow, Nat.cast_natAbs, Int.cast_abs]

theorem magnitude_lt (d : Decimal) : |d.toRat| < 10 ^ d.order := by
  have below : (d.unscaled.natAbs : ℚ) < 10 ^ (d.digits : Int) := by
    exact_mod_cast Digits.lt_pow_count d.unscaled.natAbs
  rw [order, zpow_sub₀ (by norm_num), lt_div_iff₀ (scale_pos d.scale), magnitude_value]
  exact below

theorem le_magnitude {d : Decimal} (nonzero : d.unscaled ≠ 0) : 10 ^ (d.order - 1) ≤ |d.toRat| := by
  have above : (10 : ℚ) ^ ((d.digits : Int) - 1) ≤ d.unscaled.natAbs := by
    have digits : ((d.digits : Int) - 1) = ((d.digits - 1 : Nat) : Int) := by
      have := Digits.count_pos d.unscaled.natAbs
      rw [digits]
      omega
    rw [digits, zpow_natCast]
    exact_mod_cast Digits.pow_count_le (Int.natAbs_ne_zero.mpr nonzero)
  rw [order, show (d.digits : Int) - d.scale - 1 = d.digits - 1 - d.scale by omega,
    zpow_sub₀ (by norm_num), div_le_iff₀ (scale_pos d.scale), magnitude_value]
  exact above

theorem magnitude_lt_of_order {a b : Decimal} (nonzero : b.unscaled ≠ 0)
    (orders : a.order < b.order) : |a.toRat| < |b.toRat| := calc
  |a.toRat| < 10 ^ a.order := magnitude_lt a
  _ ≤ 10 ^ (b.order - 1) := zpow_le_zpow_right₀ (by norm_num) (by omega)
  _ ≤ |b.toRat| := le_magnitude nonzero

theorem compare_magnitudes_eq {a b : Decimal} (left : a.unscaled ≠ 0) (right : b.unscaled ≠ 0) :
    a.compareMagnitudes b = compare |a.toRat| |b.toRat| := by
  rw [compareMagnitudes]
  by_cases less : a.order < b.order
  · rw [if_pos less, eq_comm, compare_lt_iff_lt]
    exact magnitude_lt_of_order right less
  · rw [if_neg less]
    by_cases greater : b.order < a.order
    · rw [if_pos greater, eq_comm, compare_gt_iff_gt]
      exact magnitude_lt_of_order left greater
    · rw [if_neg greater]
      have scaled (d : Decimal) (scales : d.scale ≤ a.commonScale b) :
          ((d.unscaledAt (a.commonScale b)).natAbs : ℚ) = |d.toRat| * 10 ^ a.commonScale b := by
        rw [Nat.cast_natAbs, Int.cast_abs, unscaled_at_value d scales, abs_mul,
          abs_of_pos (scale_pos _)]
      have cast : StrictMono (fun n : Nat => (n : ℚ)) := Nat.strictMono_cast
      have scale : StrictMono (fun q : ℚ => q * 10 ^ a.commonScale b) :=
        fun _ _ below => mul_lt_mul_of_pos_right below (scale_pos _)
      have left := scaled a (left_le_common a b)
      have right := scaled b (right_le_common a b)
      change compare (a.unscaledAt (a.commonScale b)).natAbs
        (b.unscaledAt (a.commonScale b)).natAbs = _
      rw [← cmp_eq_compare, ← cmp_eq_compare, ← cast.cmp_map_eq,
        ← scale.cmp_map_eq |a.toRat|, left, right]

theorem lt_of_sign_lt {a b : Decimal} (signs : a.unscaled.sign < b.unscaled.sign) :
    a.toRat < b.toRat := by
  rcases Int.sign_trichotomy b.unscaled with right | right | right
  · have left : a.unscaled ≤ 0 := Int.sign_nonpos_iff.mp (by omega)
    have above := (to_rat_pos b).mpr (Int.sign_eq_one_iff_pos.mp right)
    have below : a.toRat ≤ 0 := not_lt.mp (mt (to_rat_pos a).mp (by omega))
    exact lt_of_le_of_lt below above
  · have left : a.unscaled < 0 := Int.sign_neg_iff.mp (by omega)
    rw [(to_rat_eq_zero b).mpr (Int.eq_zero_of_sign_eq_zero right), to_rat_neg]
    exact left
  · rcases Int.sign_trichotomy a.unscaled with left | left | left <;> omega

theorem compare_numbers_eq (a b : Decimal) : a.compareNumbers b = compare a.toRat b.toRat := by
  rw [compareNumbers]
  rcases lt_trichotomy a.unscaled.sign b.unscaled.sign with less | same | greater
  · rw [compare_lt_iff_lt.mpr less, eq_comm, compare_lt_iff_lt]
    exact lt_of_sign_lt less
  · rw [compare_eq_iff_eq.mpr same]
    dsimp only
    by_cases zero : a.unscaled = 0
    · have other : b.unscaled = 0 := by
        rwa [zero, Int.sign_zero, eq_comm, Int.sign_eq_zero_iff_zero] at same
      rw [if_pos zero, (to_rat_eq_zero a).mpr zero, (to_rat_eq_zero b).mpr other]
      rfl
    · have other : b.unscaled ≠ 0 := by
        intro nothing
        rw [nothing, Int.sign_zero, Int.sign_eq_zero_iff_zero] at same
        exact zero same
      rw [if_neg zero]
      by_cases negative : a.unscaled < 0
      · have negative' : b.unscaled < 0 := by
          rwa [Int.sign_eq_neg_one_of_neg negative, eq_comm, Int.sign_eq_neg_one_iff_neg] at same
        have opposite : StrictAnti fun q : ℚ => -q := fun _ _ => neg_lt_neg
        rw [if_pos negative, compare_magnitudes_eq other zero,
          abs_of_neg ((to_rat_neg a).mpr negative), abs_of_neg ((to_rat_neg b).mpr negative'),
          ← cmp_eq_compare, ← cmp_eq_compare, ← opposite.cmp_map_eq b.toRat a.toRat]
      · have positive : 0 < a.unscaled := by omega
        have positive' : 0 < b.unscaled := by
          rwa [Int.sign_eq_one_of_pos positive, eq_comm, Int.sign_eq_one_iff_pos] at same
        rw [if_neg negative, compare_magnitudes_eq zero other,
          abs_of_pos ((to_rat_pos a).mpr positive), abs_of_pos ((to_rat_pos b).mpr positive')]
  · rw [compare_gt_iff_gt.mpr greater, eq_comm, compare_gt_iff_gt]
    exact lt_of_sign_lt greater

theorem less_iff (a b : Decimal) : a.less b = true ↔ a.toRat < b.toRat := by
  rw [less, compare_numbers_eq, beq_iff_eq, compare_lt_iff_lt]

theorem less_or_equal_iff (a b : Decimal) : a.lessOrEqual b = true ↔ a.toRat ≤ b.toRat := by
  rw [lessOrEqual, compare_numbers_eq, bne_iff_ne, compare_le_iff_le]

theorem is_integer_iff (d : Decimal) : d.isInteger = true ↔ ∃ n : Int, d.toRat = n := by
  rw [isInteger, decide_eq_true_iff]
  constructor
  · intro places
    refine ⟨d.normalized.unscaledAt 0, ?_⟩
    rw [unscaled_at_zero places, normalized_value]
  · rintro ⟨n, value⟩
    by_contra places
    rcases normalized_canonical d with nothing | last
    · rw [nothing] at places
      exact places le_rfl
    · have same : (ofInt n).toRat = d.normalized.toRat := by
        rw [normalized_value, value, of_int_value]
      have scales : (ofInt n).scale ≤ d.normalized.scale := by
        change 0 ≤ d.normalized.scale
        omega
      rw [← eq_of_last_digit last scales same] at places
      exact places le_rfl

theorem normalized_of_integer {d : Decimal} {n : Int} (value : d.toRat = n) :
    d.normalized.unscaledAt 0 = n := by
  have places : d.normalized.scale ≤ 0 := of_decide_eq_true ((is_integer_iff d).mpr ⟨n, value⟩)
  have written := unscaled_at_zero places
  rw [normalized_value, value] at written
  exact_mod_cast written

theorem is_odd_iff {d : Decimal} {n : Int} (value : d.toRat = n) : d.isOdd = true ↔ n % 2 = 1 := by
  have places : d.normalized.scale ≤ 0 := of_decide_eq_true ((is_integer_iff d).mpr ⟨n, value⟩)
  have written := normalized_of_integer value
  rw [unscaledAt, ten_pow_eq] at written
  rw [isOdd, Bool.and_eq_true, beq_iff_eq, bne_iff_ne]
  by_cases flat : d.normalized.scale = 0
  · rw [flat] at written
    simp only [sub_self, Int.toNat_zero, pow_zero, Nat.cast_one, mul_one] at written
    rw [written]
    simp only [flat, true_and]
    omega
  · obtain ⟨k, zeros⟩ : ∃ k, (0 - d.normalized.scale).toNat = k + 1 :=
      ⟨(0 - d.normalized.scale).toNat - 1, by omega⟩
    rw [zeros, pow_succ, Nat.cast_mul, ← mul_assoc] at written
    simp only [flat, false_and, false_iff]
    omega

theorem to_int_value {d : Decimal} {n : Int} (found : d.toInt? = some n) : d.toRat = n := by
  rw [toInt?] at found
  by_cases short : d.normalized.scale ≤ 0 ∧ d.normalized.order ≤ 40
  · rw [if_pos short, Option.some_inj] at found
    rw [← found, unscaled_at_zero short.1, normalized_value]
  · rw [if_neg short] at found
    contradiction

theorem to_int_of_value {d : Decimal} {n : Int} (value : d.toRat = n) (small : |n| < 10 ^ 40) :
    d.toInt? = some n := by
  have places : d.normalized.scale ≤ 0 := of_decide_eq_true ((is_integer_iff d).mpr ⟨n, value⟩)
  have order : d.normalized.order ≤ 40 := by
    by_cases nothing : d.normalized.unscaled = 0
    · have zero : d.normalized = zero := by
        rcases normalized_canonical d with zero | last
        · exact zero
        · rw [nothing] at last
          exact absurd (dvd_zero 10) last
      rw [zero]
      decide
    · have low := le_magnitude nothing
      have high : |d.normalized.toRat| < 10 ^ (40 : Int) := by
        rw [normalized_value, value]
        exact_mod_cast small
      have less := (zpow_lt_zpow_iff_right₀ (show (1 : ℚ) < 10 by norm_num)).mp
        (lt_of_le_of_lt low high)
      omega
  rw [toInt?, if_pos ⟨places, order⟩, normalized_of_integer value]

end Decimal

end Formula
