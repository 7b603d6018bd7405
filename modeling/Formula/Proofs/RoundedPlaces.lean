import Formula.Proofs.FittingPowers
import Formula.Proofs.PowerWords

set_option autoImplicit false

namespace Formula

namespace Exact

def toInteger (mode : Decimal.Rounding) (q : ℚ) : Int :=
  match mode with
  | .floor => ⌊q⌋
  | .ceiling => ⌈q⌉
  | .halfAwayFromZero => (if q < 0 then -1 else 1) * round |q|

structure NearestMultiple (places : Nat) (q r : ℚ) : Prop where
  multiple : ∃ m : Int, r = m / 10 ^ places
  nearest : ∀ m : Int, |r - q| ≤ |m / 10 ^ places - q|
  away : ∀ m : Int, |m / 10 ^ places - q| = |r - q| → |(m : ℚ) / 10 ^ places| ≤ |r|

-- Not zero, and with more zeros in front of the point than the scale may make up for.
def PastScale (q : ℚ) : Prop := q ≠ 0 ∧ ∃ m : Int, q = m * 10 ^ (Decimal.maxScale + 1)

theorem not_past_of_small {q : ℚ} (small : |q| < 10 ^ (Decimal.maxScale + 1)) :
    ¬ PastScale q := by
  intro past
  obtain ⟨nonzero, m, rfl⟩ := past
  have positive := Decimal.scale_pos (Decimal.maxScale + 1)
  have whole : m ≠ 0 := by
    rintro rfl
    exact nonzero (by rw [Int.cast_zero, zero_mul])
  have one : (1 : ℚ) ≤ |(m : ℚ)| := by exact_mod_cast Int.one_le_abs whole
  rw [abs_mul, abs_of_pos positive] at small
  exact absurd (le_mul_of_one_le_left positive.le one) (not_le.mpr small)

theorem to_integer_cast (mode : Decimal.Rounding) (n : Int) : toInteger mode n = n := by
  cases mode with
  | floor => exact Int.floor_intCast n
  | ceiling => exact Int.ceil_intCast n
  | halfAwayFromZero =>
    rw [toInteger, ← Int.cast_abs, round_intCast]
    rcases lt_or_ge n 0 with negative | natural
    · rw [if_pos (Int.cast_lt_zero.mpr negative), abs_of_neg negative]
      ring
    · rw [if_neg (not_lt.mpr (Int.cast_nonneg natural)), abs_of_nonneg natural, one_mul]

theorem half_of_nonneg {q : ℚ} (nonneg : 0 ≤ q) : toInteger .halfAwayFromZero q = round q := by
  rw [toInteger, if_neg nonneg.not_gt, one_mul, abs_of_nonneg nonneg]

theorem half_neg (q : ℚ) : toInteger .halfAwayFromZero (-q) = -toInteger .halfAwayFromZero q := by
  rw [toInteger, toInteger, abs_neg]
  rcases lt_trichotomy q 0 with negative | rfl | positive
  · rw [if_pos negative, if_neg (by linarith)]
    ring
  · simp
  · rw [if_pos (by linarith), if_neg positive.not_gt]
    ring

theorem to_integer_near (mode : Decimal.Rounding) (q : ℚ) : |(toInteger mode q : ℚ) - q| < 1 := by
  cases mode with
  | floor =>
    have low := Int.floor_le q
    have high := Int.lt_floor_add_one q
    rw [toInteger, abs_lt]
    constructor <;> linarith
  | ceiling =>
    have low := Int.le_ceil q
    have high := Int.ceil_lt_add_one q
    rw [toInteger, abs_lt]
    constructor <;> linarith
  | halfAwayFromZero =>
    have error := rounded_error 0 q
    rw [roundedAt, zpow_zero, mul_one, div_one, div_one] at error
    rw [toInteger]
    push_cast
    linarith

theorem to_integer_small (mode : Decimal.Rounding) {q : ℚ} (small : |q| < 1 / 2) :
    toInteger mode q =
      match mode with
      | .floor => if q < 0 then -1 else 0
      | .ceiling => if 0 < q then 1 else 0
      | .halfAwayFromZero => 0 := by
  have bounds := abs_lt.mp small
  cases mode with
  | floor =>
    dsimp only [toInteger]
    split <;>
    · rw [Int.floor_eq_iff]
      constructor <;> push_cast <;> linarith
  | ceiling =>
    dsimp only [toInteger]
    split <;>
    · rw [Int.ceil_eq_iff]
      constructor <;> push_cast <;> linarith
  | halfAwayFromZero =>
    have nothing : round |q| = 0 := by
      have nonneg := abs_nonneg q
      rw [round_eq_zero_iff]
      constructor <;> linarith
    rw [toInteger, nothing, mul_zero]

theorem multiple_distance (places : Nat) (m : Int) (q : ℚ) :
    |(m : ℚ) / 10 ^ places - q| = |m - q * 10 ^ places| / 10 ^ places := by
  have positive : (0 : ℚ) < 10 ^ places := by positivity
  rw [← abs_of_pos positive, ← abs_div, abs_of_pos positive, sub_div,
    mul_div_cancel_right₀ _ positive.ne']

theorem nearest_neg {places : Nat} {q r : ℚ} (nearest : NearestMultiple places q r) :
    NearestMultiple places (-q) (-r) := by
  have flip (a b : ℚ) : |-a - -b| = |a - b| := by
    rw [← neg_sub', abs_neg]
  have opposite (m : Int) : ((m : ℚ) / 10 ^ places) = -((-m : Int) / 10 ^ places) := by
    rw [Int.cast_neg, neg_div, neg_neg]
  obtain ⟨m, multiple⟩ := nearest.multiple
  refine ⟨⟨-m, ?_⟩, ?_, ?_⟩
  · rw [opposite, neg_neg, multiple]
  · intro m
    rw [opposite m, flip, flip]
    exact nearest.nearest (-m)
  · intro m
    rw [opposite m, flip, flip, abs_neg, abs_neg]
    exact nearest.away (-m)

theorem nearest_of_nonneg {q : ℚ} (nonneg : 0 ≤ q) (places : Nat) :
    NearestMultiple places q (round (q * 10 ^ places) / 10 ^ places) := by
  have scaled : 0 ≤ q * 10 ^ places := by positivity
  refine ⟨⟨_, rfl⟩, ?_, ?_⟩
  · intro m
    rw [multiple_distance, multiple_distance, abs_sub_comm, abs_sub_comm (m : ℚ)]
    exact div_le_div_of_nonneg_right (round_le _ m) (by positivity)
  · intro m same
    rw [multiple_distance, multiple_distance, div_left_inj' (by positivity)] at same
    rw [abs_div, abs_div]
    apply div_le_div_of_nonneg_right _ (abs_nonneg _)
    generalize q * 10 ^ places = y at scaled same ⊢
    have high : y + 1 / 2 < round y + 1 := by
      rw [round_eq]
      exact Int.lt_floor_add_one _
    have natural : 0 ≤ round y := by
      rw [round_eq]
      exact Int.floor_nonneg.mpr (by linarith)
    have cast : (0 : ℚ) ≤ round y := Int.cast_nonneg natural
    -- Another integer as close is the mirror image in the number, which is not above the half.
    rcases abs_eq_abs.mp same with equal | mirrored
    · rw [sub_left_inj.mp equal]
    · have above : m < round y + 1 := by
        rw [← Int.cast_lt (R := ℚ)]
        push_cast
        linarith
      have below : -round y ≤ m := by
        rw [← Int.cast_le (R := ℚ)]
        push_cast
        linarith
      rw [← Int.cast_abs, ← Int.cast_abs, Int.cast_le, abs_of_nonneg natural]
      exact abs_le.mpr ⟨below, Int.lt_add_one_iff.mp above⟩

theorem half_nearest (places : Nat) (q : ℚ) :
    NearestMultiple places q (toInteger .halfAwayFromZero (q * 10 ^ places) / 10 ^ places) := by
  rcases le_total 0 q with nonneg | nonpos
  · rw [half_of_nonneg (by positivity)]
    exact nearest_of_nonneg nonneg places
  · have opposite : 0 ≤ -q := neg_nonneg.mpr nonpos
    have scaled : q * 10 ^ places = -(-q * 10 ^ places) := by ring
    have nearest := nearest_neg (nearest_of_nonneg opposite places)
    rw [neg_neg, ← neg_div, ← Int.cast_neg] at nearest
    rwa [scaled, half_neg, half_of_nonneg (by positivity)]

end Exact

namespace Decimal

theorem divide_value (mode : Rounding) {n : Int} (nonzero : n ≠ 0) {d : Nat} (positive : 0 < d) :
    mode.divide n d = Exact.toInteger mode (n / d) := by
  have natural : (0 : Int) ≤ d := Int.natCast_nonneg d
  cases mode with
  | floor =>
    rw [Rounding.divide, Exact.toInteger, Rat.floor_intCast_div_natCast]
    exact Int.fdiv_eq_ediv_of_nonneg n natural
  | ceiling =>
    have opposite : (n : ℚ) / d = -((-n : Int) / d) := by
      rw [Int.cast_neg, neg_div, neg_neg]
    rw [Rounding.divide, Exact.toInteger, opposite, Int.ceil_neg, Rat.floor_intCast_div_natCast,
      Int.fdiv_eq_ediv_of_nonneg _ natural]
  | halfAwayFromZero =>
    have divisor : (0 : ℚ) < d := Nat.cast_pos.mpr positive
    have sign : n.sign = if (n : ℚ) / d < 0 then -1 else 1 := by
      rcases lt_or_gt_of_ne nonzero with negative | above
      · rw [if_pos (div_neg_of_neg_of_pos (Int.cast_lt_zero.mpr negative) divisor),
          Int.sign_eq_neg_one_of_neg negative]
      · rw [if_neg (not_lt.mpr (div_nonneg (Int.cast_nonneg above.le) divisor.le)),
          Int.sign_eq_one_of_pos above]
    have half : |(n : ℚ) / d| + 1 / 2 = (2 * n.natAbs + d : Nat) / (2 * d : Nat) := by
      rw [abs_div, abs_of_pos divisor, Nat.cast_add, Nat.cast_mul, Nat.cast_mul, Nat.cast_natAbs,
        Int.cast_abs]
      field_simp
      push_cast
      ring
    rw [Rounding.divide, Exact.toInteger, ← sign, round_eq, half, Rat.floor_natCast_div_natCast]
    norm_cast

theorem rescale_eq (d : Decimal) (scale : Int) (mode : Rounding) :
    d.rescale scale mode = ⟨Exact.toInteger mode (d.toRat * 10 ^ scale), scale⟩ := by
  have positive := scale_pos scale
  unfold rescale
  by_cases zero : d.isZero = true
  · have nothing := Exact.to_integer_cast mode 0
    rw [Int.cast_zero] at nothing
    rw [if_pos zero, (is_zero_iff d).mp zero, zero_mul, nothing]
  · rw [if_neg zero]
    by_cases finer : d.scale ≤ scale
    · rw [if_pos finer, ← unscaled_at_value d finer, Exact.to_integer_cast]
    · have nonzero : d.unscaled ≠ 0 := mt (to_rat_eq_zero d).mpr (mt (is_zero_iff d).mpr zero)
      rw [if_neg finer]
      by_cases behind : d.order < -scale
      · have small : |d.toRat * 10 ^ scale| < 1 / 2 := calc
          |d.toRat * 10 ^ scale| = |d.toRat| * 10 ^ scale := by rw [abs_mul, abs_of_pos positive]
          _ < 10 ^ d.order * 10 ^ scale := mul_lt_mul_of_pos_right (magnitude_lt d) positive
          _ = 10 ^ (d.order + scale) := (zpow_add₀ (by norm_num) _ _).symm
          _ ≤ 10 ^ (-1 : Int) := zpow_le_zpow_right₀ (by norm_num) (by omega)
          _ < 1 / 2 := by norm_num
        have below : d.toRat * 10 ^ scale < 0 ↔ d.unscaled < 0 := by
          rw [← to_rat_neg, mul_neg_iff]
          simp [positive, positive.not_gt]
        have above : 0 < d.toRat * 10 ^ scale ↔ 0 < d.unscaled := by
          rw [mul_pos_iff_of_pos_right positive, to_rat_pos]
        rw [if_pos behind, Exact.to_integer_small mode small]
        cases mode <;> simp only [below, above]
      · have places : d.toRat * 10 ^ scale = d.unscaled / tenPow (d.scale - scale).toNat := by
          rw [toRat, ten_pow_eq]
          push_cast
          rw [← zpow_natCast, Int.toNat_of_nonneg (by omega), zpow_sub₀ (by norm_num)]
          field_simp
        have divisor : 0 < tenPow (d.scale - scale).toNat := by
          rw [ten_pow_eq]
          positivity
        rw [if_neg behind, places, divide_value mode nonzero divisor]

theorem rescale_value (d : Decimal) (scale : Int) (mode : Rounding) :
    (d.rescale scale mode).toRat = Exact.toInteger mode (d.toRat * 10 ^ scale) / 10 ^ scale := by
  rw [rescale_eq, to_rat_mk]

theorem rescale_shorter {d : Decimal} {scale : Int} (finer : scale < d.scale) (mode : Rounding) :
    (d.rescale scale mode).unscaled.natAbs ≤ d.unscaled.natAbs := by
  have positive := scale_pos scale
  have units : |d.toRat * 10 ^ scale| ≤ d.unscaled.natAbs := by
    rw [← magnitude_value, abs_mul, abs_of_pos positive]
    exact mul_le_mul_of_nonneg_left (zpow_le_zpow_right₀ (by norm_num) finer.le) (abs_nonneg _)
  have near := Exact.to_integer_near mode (d.toRat * 10 ^ scale)
  rw [rescale_eq]
  dsimp only
  generalize Exact.toInteger mode (d.toRat * 10 ^ scale) = z at near ⊢
  have triangle := abs_sub_abs_le_abs_sub (z : ℚ) (d.toRat * 10 ^ scale)
  have below : (z.natAbs : ℚ) < (d.unscaled.natAbs + 1 : Nat) := by
    rw [Nat.cast_natAbs, Int.cast_abs]
    push_cast at units ⊢
    linarith
  exact Nat.lt_succ_iff.mp (Nat.cast_lt.mp below)

theorem rescale_bounded {d : Decimal} (bounded : d.Bounded) {scale : Int}
    (near : |scale| ≤ maxScale) (finer : scale < d.scale) (mode : Rounding) :
    (d.rescale scale mode).Bounded := by
  have short := bounded.short
  refine ⟨?_, ?_⟩
  · rw [rescale_eq]
    exact near
  · rw [← count_eq_written] at short ⊢
    exact le_trans (Digits.count_mono (rescale_shorter finer mode)) short

theorem rescale_same {d : Decimal} {scale : Int} (coarser : d.scale ≤ scale) (mode : Rounding) :
    (d.rescale scale mode).toRat = d.toRat := by
  rw [rescale_value, ← unscaled_at_value d coarser, Exact.to_integer_cast,
    of_unscaled_at d coarser]

theorem rescale_again (d : Decimal) (scale : Int) (mode : Rounding) :
    ((d.rescale scale mode).normalized.rescale scale mode).toRat =
      (d.rescale scale mode).toRat := by
  rw [rescale_value, normalized_value, rescale_value,
    div_mul_cancel₀ _ (scale_pos scale).ne', Exact.to_integer_cast]

theorem written_le_max_iff (n : Nat) : writtenDigits n ≤ maxDigits ↔ n < 10 ^ maxDigits :=
  Nat.length_toDigits_le_iff (by norm_num) (by decide)

theorem magnitude_lt_of_places {d : Decimal} (bounded : d.Bounded) (places : 0 ≤ d.scale) :
    |d.toRat| < 10 ^ maxDigits := by
  have short := (written_le_max_iff _).mp bounded.short
  have one : (1 : ℚ) ≤ 10 ^ d.scale := one_le_zpow₀ (by norm_num) places
  calc
    |d.toRat| ≤ |d.toRat| * 10 ^ d.scale := le_mul_of_one_le_right (abs_nonneg _) one
    _ = d.unscaled.natAbs := magnitude_value d
    _ < 10 ^ maxDigits := by exact_mod_cast short

theorem flat_bounded_iff {d : Decimal} (flat : d.scale = 0) :
    d.Bounded ↔ |d.toRat| < 10 ^ maxDigits := by
  constructor
  · intro bounded
    exact magnitude_lt_of_places bounded flat.ge
  · intro below
    rw [magnitude_eq, flat, zpow_zero, div_one] at below
    refine ⟨by rw [flat]; decide, (written_le_max_iff _).mpr ?_⟩
    exact_mod_cast below

theorem rescale_integer_bounded_iff {d : Decimal} (bounded : d.Bounded) (mode : Rounding) :
    (d.rescale 0 mode).Bounded ↔ |d.toRat| < 10 ^ maxDigits := by
  rcases lt_or_ge 0 d.scale with finer | coarser
  · exact iff_of_true (rescale_bounded bounded (by decide) finer mode)
      (magnitude_lt_of_places bounded finer.le)
  · rw [flat_bounded_iff (by rw [rescale_eq]), rescale_same coarser]

theorem normalized_shorter (d : Decimal) :
    d.normalized.unscaled.natAbs ≤ d.unscaled.natAbs := by
  rw [normalized]
  by_cases nothing : d.unscaled = 0
  · rw [if_pos nothing]
    exact Nat.zero_le _
  · have value := Digits.strip_value d.unscaled.natAbs
    rw [if_neg nothing, Int.natAbs_mul, Int.natAbs_sign_of_ne_zero nothing, one_mul,
      Int.natAbs_natCast]
    conv_rhs => rw [value]
    exact Nat.le_mul_of_pos_right _ (by positivity)

theorem past_scale_iff (d : Decimal) :
    Exact.PastScale d.toRat ↔ d.normalized.scale < -maxScale := by
  constructor
  · intro past
    obtain ⟨nonzero, m, value⟩ := past
    by_contra within
    have last := normalized_last (mt (is_zero_iff d).mp nonzero)
    have same : toRat ⟨m, -(maxScale + 1)⟩ = d.normalized.toRat := by
      rw [normalized_value, value, to_rat_mk, zpow_neg, div_inv_eq_mul]
    have scales : -(maxScale + 1) ≤ d.normalized.scale := by omega
    have form := eq_of_last_digit last scales same
    rw [← form] at within
    dsimp only at within
    omega
  · intro far
    have nonzero : d.toRat ≠ 0 := by
      intro zero
      rw [(normalized_eq_iff d .zero).mpr (by rw [zero, zero_value])] at far
      exact absurd far (by decide +kernel)
    obtain ⟨k, zeros⟩ := Int.eq_ofNat_of_zero_le
      (show 0 ≤ -d.normalized.scale - (maxScale + 1) by omega)
    refine ⟨nonzero, d.normalized.unscaled * 10 ^ k, ?_⟩
    have scale : -d.normalized.scale = k + (maxScale + 1) := by omega
    rw [← normalized_value d, toRat, div_eq_mul_inv, ← zpow_neg, scale, zpow_add₀ (by norm_num),
      zpow_natCast, ← mul_assoc]
    push_cast
    rfl

theorem normalized_bounded_iff {d : Decimal} (bounded : d.Bounded) :
    d.normalized.Bounded ↔ ¬ Exact.PastScale d.toRat := by
  rw [past_scale_iff, not_lt]
  constructor
  · intro within
    exact (abs_le.mp within.scale).1
  · intro low
    have short := bounded.short
    have high := le_trans (normalized_scale_le_self d)
      (max_le (abs_le.mp bounded.scale).2 (show 0 ≤ maxScale by decide))
    refine ⟨abs_le.mpr ⟨low, high⟩, ?_⟩
    rw [← count_eq_written] at short ⊢
    exact le_trans (Digits.count_mono (normalized_shorter d)) short

theorem rounded_form {d : Decimal} (bounded : d.Bounded) {places : Int} (natural : 0 ≤ places)
    (few : places ≤ maxScale) (mode : Rounding) :
    ∃ e : Decimal, e.Bounded ∧ e.toRat = (d.rescale places mode).toRat := by
  rcases lt_or_ge places d.scale with finer | coarser
  · exact ⟨_, rescale_bounded bounded (abs_le.mpr ⟨by omega, few⟩) finer mode, rfl⟩
  · exact ⟨d, bounded, (rescale_same coarser mode).symm⟩

theorem rounded_bounded_iff {d : Decimal} (bounded : d.Bounded) {places : Int}
    (natural : 0 ≤ places) (few : places ≤ maxScale) (mode : Rounding) :
    |(d.rescale places mode).normalized.scale| < 2 ^ 63 ∧
      ((d.rescale places mode).normalized.Bounded ↔
        ¬ Exact.PastScale (d.rescale places mode).toRat) := by
  obtain ⟨e, within, same⟩ := rounded_form bounded natural few mode
  rw [← (normalized_eq_iff e _).mpr same, ← same]
  exact ⟨lt_of_le_of_lt (normalized_scale_le within) (by decide), normalized_bounded_iff within⟩

def writtenPower (zeros : Nat) (scale : Int) : Decimal := ⟨(tenPow zeros : Nat), scale⟩

theorem written_power_value (zeros : Nat) (scale : Int) :
    (writtenPower zeros scale).toRat = 10 ^ (zeros - scale) := by
  rw [writtenPower, to_rat_mk, ten_pow_eq, zpow_sub₀ (by norm_num), zpow_natCast]
  push_cast
  rfl

theorem written_power_bounded {zeros : Nat} {scale : Int} (near : |scale| ≤ maxScale)
    (short : zeros < maxDigits) : (writtenPower zeros scale).Bounded := by
  refine ⟨near, (written_le_max_iff _).mpr ?_⟩
  rw [writtenPower, Int.natAbs_natCast, ten_pow_eq]
  exact Nat.pow_lt_pow_right (by omega) short

theorem long_power_bounded : (writtenPower 150000 (-100000)).Bounded :=
  written_power_bounded (by decide) (by decide)

theorem long_power_value : |(writtenPower 150000 (-100000)).toRat| = 10 ^ maxDigits := by
  have places : ((150000 : Nat) : Int) - -100000 = (maxDigits : Nat) := by decide
  rw [written_power_value, places, zpow_natCast, abs_of_pos (by positivity)]

end Decimal

end Formula
