import Formula.Proofs.EstimateAbove
import Formula.Proofs.RoundedDigits

set_option autoImplicit false

namespace Formula.Decimal

open Binary

theorem undivided_of_remainder {num den : Nat} {q : Quotient} (holds : q.Holds num den)
    (left : q.remainder ≠ 0) : ¬ den ∣ num * 10 ^ q.places := by
  intro divides
  rw [← holds.value, Nat.dvd_add_right (Nat.dvd_mul_left den q.digits)] at divides
  exact left (Nat.eq_zero_of_dvd_of_lt divides holds.below)

theorem develop_least {num den : Nat} (steps : Nat) {q : Quotient} (holds : q.Holds num den) :
    (Quotient.develop den steps q).places = q.places ∨
      ¬ den ∣ num * 10 ^ ((Quotient.develop den steps q).places - 1) := by
  induction steps generalizing q with
  | zero => exact .inl rfl
  | succ steps ih =>
    rw [Quotient.develop]
    split
    · exact .inl rfl
    · rename_i left
      rcases ih (next_holds holds) with first | least
      · right
        rw [first]
        exact undivided_of_remainder holds left
      · exact .inr least

theorem developed_least (num : Nat) {den : Nat} (shift : Nat) (nonzero : den ≠ 0) :
    (developed num den shift).places = shift ∨
      ¬ den ∣ num * 10 ^ ((developed num den shift).places - 1) :=
  develop_least _ ⟨Nat.div_add_mod' _ den, Nat.mod_lt _ (Nat.pos_of_ne_zero nonzero)⟩

theorem divide_places_le_of_dvd {num den e : Nat} (some : num ≠ 0) (nonzero : den ≠ 0)
    (divides : den ∣ num * 10 ^ e) : (divideMagnitudes num den).2 ≤ e := by
  rw [divide_magnitudes_eq]
  by_contra more
  have earlier : den ∣ num * 10 ^ ((developed num den (leadingShift num den)).places - 1) := by
    refine dvd_trans divides (Nat.mul_dvd_mul_left num (Nat.pow_dvd_pow 10 ?_))
    omega
  rcases developed_least num (leadingShift num den) nonzero with first | least
  · rw [first] at earlier more
    have small : num < den := by
      by_contra large
      rw [leading_shift_large (not_lt.mp large)] at more
      omega
    have below := (leading_shift_small some small).2
    rw [show leadingShift num den = leadingShift num den - 1 + 1 by omega, pow_succ,
      ← mul_assoc, mul_comm] at below
    have tenth := Nat.lt_of_mul_lt_mul_left below
    exact absurd (Nat.le_of_dvd (by positivity) earlier) (not_le.mpr tenth)
  · exact least earlier

theorem inverse_scales {a b : Decimal} (inverse : a.toRat * b.toRat = 1) :
    ∃ e : Nat, a.scale + b.scale = e ∧ a.unscaled.natAbs * b.unscaled.natAbs = 10 ^ e := by
  have product : ((a.unscaled * b.unscaled : Int) : ℚ) = 10 ^ (a.scale + b.scale) := by
    rw [Int.cast_mul, ← to_rat_mul_pow a, ← to_rat_mul_pow b, mul_mul_mul_comm, inverse, one_mul,
      zpow_add₀ (by norm_num)]
  have natural : 0 ≤ a.scale + b.scale := by
    by_contra negative
    have below : (10 : ℚ) ^ (a.scale + b.scale) < 1 :=
      zpow_lt_one_of_neg₀ (by norm_num) (not_le.mp negative)
    have positive := scale_pos (a.scale + b.scale)
    rw [← product] at below positive
    have low : (0 : Int) < a.unscaled * b.unscaled := by exact_mod_cast positive
    have high : a.unscaled * b.unscaled < 1 := by exact_mod_cast below
    omega
  obtain ⟨e, exponent⟩ := Int.eq_ofNat_of_zero_le natural
  refine ⟨e, exponent, ?_⟩
  rw [exponent, zpow_natCast] at product
  have whole : a.unscaled * b.unscaled = 10 ^ e := by exact_mod_cast product
  rw [← Int.natAbs_mul, whole, Int.natAbs_pow]
  rfl

theorem bounded_of_scale_le {r d : Decimal} (same : r.toRat = d.toRat) (bounded : d.Bounded)
    (low : -maxScale ≤ r.scale) (high : r.scale ≤ d.scale) : r.Bounded := by
  have short := bounded.short
  have extended := unscaled_at_value r high
  rw [same, to_rat_mul_pow, Int.cast_inj, unscaledAt, ten_pow_eq] at extended
  have less : r.unscaled.natAbs ≤ d.unscaled.natAbs := by
    rw [← extended, Int.natAbs_mul, Int.natAbs_natCast]
    exact Nat.le_mul_of_pos_right _ (by positivity)
  refine ⟨abs_le.mpr ⟨low, le_trans high (abs_le.mp bounded.scale).2⟩, ?_⟩
  rw [← count_eq_written] at short ⊢
  exact le_trans (Digits.count_mono less) short

theorem quotient_bounded {b d : Decimal} (last : ¬ (10 : Int) ∣ b.unscaled)
    (near : |b.scale| ≤ maxScale) (same : (one / b).toRat = d.toRat)
    (inverse : d.toRat * b.toRat = 1) (bounded : d.Bounded) : (one / b).Bounded := by
  have bounds := abs_le.mp near
  change (div one b).Bounded
  change (div one b).toRat = _ at same
  rw [div, show one.isZero = false from rfl, Bool.false_or] at same ⊢
  by_cases unit : b.isUnit = true
  · rw [if_pos unit]
    exact one_bounded
  · rw [if_neg unit] at same ⊢
    by_cases equal : one.unscaled = b.unscaled
    · rw [if_pos equal]
      refine ⟨?_, one_bounded.short⟩
      rw [one, zero_sub, abs_neg]
      exact near
    · rw [if_neg equal] at same ⊢
      obtain ⟨e, scales, product⟩ := inverse_scales inverse
      have nonzero : b.unscaled.natAbs ≠ 0 := Int.natAbs_ne_zero.mpr (ne_zero_of_last last)
      have places : (divideMagnitudes one.unscaled.natAbs b.unscaled.natAbs).2 ≤ e := by
        apply divide_places_le_of_dvd (by decide) nonzero
        rw [show one.unscaled.natAbs = 1 from rfl, one_mul, ← product]
        exact Nat.dvd_mul_left _ _
      apply bounded_of_scale_le same bounded
      · rw [one]
        dsimp only
        omega
      · rw [one] at places ⊢
        dsimp only at places ⊢
        omega

theorem factor_le {p q v u e : Nat} (positive : 0 < p) (positive' : 0 < q)
    (product : v * u = (p * q) ^ e) (coprime : Nat.Coprime p u) : p ^ e ≤ v ∧ u ≤ q ^ e := by
  have divides : p ^ e ∣ v := by
    apply (Nat.Coprime.pow_left e coprime).dvd_of_dvd_mul_right
    rw [product, mul_pow]
    exact Nat.dvd_mul_right _ _
  have nonzero : v ≠ 0 := by
    rintro rfl
    rw [zero_mul] at product
    exact absurd product.symm (Nat.pow_pos (Nat.mul_pos positive positive')).ne'
  have large := Nat.le_of_dvd (Nat.pos_of_ne_zero nonzero) divides
  refine ⟨large, ?_⟩
  apply Nat.le_of_mul_le_mul_left _ (Nat.pow_pos (n := e) positive)
  calc
    p ^ e * u ≤ v * u := Nat.mul_le_mul_right u large
    _ = p ^ e * q ^ e := by rw [product, mul_pow]

theorem inverse_few {u v e : Nat} (product : v * u = 10 ^ e) (last : ¬ 10 ∣ u)
    (few : v < 10 ^ quotientDigits) : u < 10 ^ (3 * quotientDigits) := by
  by_cases five : 5 ∣ u
  · have two : Nat.Coprime 2 u := by
      rw [Nat.prime_two.coprime_iff_not_dvd]
      omega
    obtain ⟨large, less⟩ := factor_le two_pos (show 0 < 5 by omega) product two
    calc
      u ≤ 5 ^ e := less
      _ ≤ 8 ^ e := Nat.pow_le_pow_left (by omega) e
      _ = (2 ^ e) ^ 3 := by rw [show 8 = 2 ^ 3 from rfl, Nat.pow_right_comm]
      _ ≤ v ^ 3 := Nat.pow_le_pow_left large 3
      _ < (10 ^ quotientDigits) ^ 3 := Nat.pow_lt_pow_left few (by omega)
      _ = 10 ^ (3 * quotientDigits) := by rw [← Nat.pow_mul, mul_comm]
  · have coprime : Nat.Coprime 5 u := Nat.prime_five.coprime_iff_not_dvd.mpr five
    obtain ⟨large, less⟩ := factor_le (show 0 < 5 by omega) two_pos product coprime
    calc
      u ≤ 2 ^ e := less
      _ ≤ 5 ^ e := Nat.pow_le_pow_left (by omega) e
      _ ≤ v := large
      _ < 10 ^ quotientDigits := few
      _ ≤ 10 ^ (3 * quotientDigits) := Nat.pow_le_pow_right (by omega) (by omega)

theorem few_of_inverse {b : Decimal} (last : ¬ (10 : Int) ∣ b.unscaled) (nonzero : b.toRat ≠ 0)
    (short : Exact.HasDigits quotientDigits (1 / b.toRat)) :
    b.unscaled.natAbs < 10 ^ (3 * quotientDigits) := by
  obtain ⟨m, k, few, value⟩ := short
  have inverse : (⟨m, -k⟩ : Decimal).toRat * b.toRat = 1 := by
    rw [to_rat_mk, zpow_neg, div_inv_eq_mul, ← value, one_div_mul_cancel nonzero]
  obtain ⟨e, -, product⟩ := inverse_scales inverse
  apply inverse_few product
  · rwa [← Int.natCast_dvd]
  · rw [← Nat.cast_lt (α := Int), Int.natCast_natAbs]
    exact_mod_cast few

def Representable (q : ℚ) : Prop := ∃ d : Decimal, d.toRat = q ∧ d.Bounded

theorem reciprocal_found {b : Decimal} (last : ¬ (10 : Int) ∣ b.unscaled)
    (near : |b.scale| ≤ maxScale) (nonzero : b.toRat ≠ 0)
    (short : Exact.HasDigits quotientDigits (1 / b.toRat))
    (representable : Representable (1 / b.toRat)) (operation : String) :
    (one / b).ensureInRange operation = .ok (one / b) ∧ (one / b).toRat = 1 / b.toRat := by
  obtain ⟨d, same, bounded⟩ := representable
  have quotient : (one / b).toRat = 1 / b.toRat := by
    have kept := div_value one nonzero
    rwa [kept_of_has_digits (by rwa [one_value]), one_value] at kept
  have result := quotient_bounded last near (quotient.trans same.symm)
    (by rw [same, one_div_mul_cancel nonzero]) bounded
  exact ⟨by_range_bounded _ _ result, quotient⟩

theorem reciprocal_has_digits {b : Decimal} (nonzero : b.toRat ≠ 0) :
    Exact.HasDigits quotientDigits (one / b).toRat := by
  rw [div_value one nonzero, one_value, keptDigits]
  by_cases unit : b.isUnit = true
  · rw [if_pos unit, is_unit_value unit, div_one]
    exact ⟨1, 0, by norm_num [quotientDigits], by rw [Exact.kept]; norm_num⟩
  · have single : one.unscaled.natAbs / b.unscaled.natAbs ≤ 1 := Nat.div_le_self 1 _
    have count : Digits.count (one.unscaled.natAbs / b.unscaled.natAbs) ≤ 1 :=
      Digits.count_le one_pos (by omega)
    have hundred : significantDigits one.unscaled.natAbs b.unscaled.natAbs = quotientDigits :=
      max_eq_left (le_trans count (by decide))
    rw [if_neg unit, hundred]
    exact Exact.significant_has_digits (by decide) _

theorem overflows_ge {b : Binary} (past : b.overflows = true) : (2 : ℚ) ^ 1024 ≤ b.toRat := by
  have bound : twoPow precision * twoPow greatestExponent.toNat = 2 ^ 1024 := by decide +kernel
  rw [overflows, decide_eq_true_iff, bound] at past
  rw [← ratio_value b, le_div_iff₀ (Nat.cast_pos.mpr (ratio_den_pos b))]
  exact_mod_cast past

theorem reckoned_of_few {n : Nat} (few : n < 10 ^ (3 * quotientDigits)) : reckoned n = n := by
  rw [reckoned, if_neg]
  intro past
  have above := Rat.cast_le (K := ℝ).mpr (overflows_ge past)
  have some : 0 < n := by
    by_contra none
    rw [Nat.eq_zero_of_not_pos none] at past
    exact absurd past (by decide +kernel)
  have stays := of_nat_stays some
  have below : n * 2 < 2 ^ 1024 :=
    lt_trans (Nat.mul_lt_mul_of_pos_right few two_pos) (by decide +kernel)
  have below : (n : ℝ) * 2 < 2 ^ 1024 := by exact_mod_cast below
  have natural : (0 : ℝ) ≤ n := Nat.cast_nonneg n
  rw [Stays] at stays
  push_cast at stays above
  generalize (2 : ℝ) ^ 1024 = limit at below above
  linarith

theorem few_le_safe_bound : 10 ^ (3 * quotientDigits) ≤ safeBound := by
  have places : 3 * quotientDigits ≤ safePlaces := by decide
  have power : 10 ^ (3 * quotientDigits) ≤ 10 ^ safePlaces := Nat.pow_le_pow_right (by omega) places
  rw [safeBound]
  omega

theorem safe_of_few {n m : Nat} (few : n < 10 ^ (3 * quotientDigits))
    (short : n ^ m < 10 ^ (3 * quotientDigits)) : reckoned n ^ m < safeBound := by
  rw [reckoned_of_few few]
  exact lt_of_lt_of_le short few_le_safe_bound

theorem exponent_small {base : Decimal} (some : ¬ base.isZero = true)
    (plain : ¬ base.abs.sameNumber one = true) {m : Nat}
    (scale : |base.normalized.scale * m| ≤ maxScale)
    (short : base.normalized.unscaled.natAbs ^ m < 10 ^ maxDigits) : m < 2 ^ 63 := by
  have nonzero := ne_zero_of_last (normalized_last some)
  by_cases flat : base.normalized.scale = 0
  · have other : base.normalized.unscaled.natAbs ≠ 1 := by
      intro one
      apply plain
      rw [same_number_iff, abs_value, one_value, ← normalized_value, toRat, flat, zpow_zero,
        div_one]
      exact_mod_cast (Int.abs_eq_natAbs _).trans (congrArg Nat.cast one)
    have two : 2 ≤ base.normalized.unscaled.natAbs := by omega
    have few : m < 4 * maxDigits := by
      apply (Nat.pow_lt_pow_iff_right (show 1 < 2 by omega)).mp
      calc
        2 ^ m ≤ base.normalized.unscaled.natAbs ^ m := Nat.pow_le_pow_left two m
        _ < 10 ^ maxDigits := short
        _ ≤ 16 ^ maxDigits := Nat.pow_le_pow_left (by omega) _
        _ = 2 ^ (4 * maxDigits) := by rw [show 16 = 2 ^ 4 from rfl, ← Nat.pow_mul]
    rw [maxDigits] at few
    omega
  · have one : 1 ≤ |base.normalized.scale| := Int.one_le_abs flat
    have less : (m : Int) ≤ |base.normalized.scale * m| := by
      rw [abs_mul, Nat.abs_cast]
      exact le_mul_of_one_le_left (Int.natCast_nonneg m) one
    rw [maxScale] at scale
    omega

-- The powers that are computed exactly.
inductive Attained (base : Decimal) (n : Int) : Prop where
  | simple (plain : n = 0 ∨ base.toRat = 0 ∨ |base.toRat| = 1)
  | positive (more : 0 < n) (scale : |base.normalized.scale * n| ≤ maxScale)
      (short : (estimatedDigits base.normalized.unscaled.natAbs n.natAbs).toRat ≤ maxDigits)
  | negative (less : n < 0) (scale : |base.normalized.scale * n| ≤ maxScale)
      (short : Exact.HasDigits quotientDigits (base.toRat ^ n))

theorem power_simple {base exponent : Decimal} {n : Int} (value : exponent.toRat = n)
    (defined : n < 0 → base.toRat ≠ 0)
    (simple : exponent.isZero = true ∨ base.isZero = true ∨ base.abs.sameNumber one = true) :
    ∃ result, power base exponent = .ok result ∧ result.toRat = base.toRat ^ n := by
  rw [power_of_integer value defined, integerPower]
  by_cases none : exponent.isZero = true
  · rw [is_zero_iff, value, Int.cast_eq_zero] at none
    refine ⟨one, if_pos ((is_zero_iff _).mpr (by rw [value, none, Int.cast_zero])), ?_⟩
    rw [none, zpow_zero, one_value]
  · rw [if_neg none]
    have more : n ≠ 0 := by
      rintro rfl
      exact none ((is_zero_iff _).mpr (by rw [value, Int.cast_zero]))
    by_cases nothing : base.isZero = true
    · rw [if_pos nothing]
      exact ⟨zero, rfl, by rw [zero_value, (is_zero_iff base).mp nothing, zero_zpow n more]⟩
    · have unit := (simple.resolve_left none).resolve_left nothing
      rw [if_neg nothing, if_pos unit]
      exact ⟨_, rfl, unit_power value unit⟩

section Plain

variable {base exponent : Decimal} {m : Nat} (some : ¬ base.isZero = true)
  (plain : ¬ base.abs.sameNumber one = true)

include some plain

theorem power_positive (value : exponent.toRat = (m : Int)) (more : 0 < m)
    (scale : |base.normalized.scale * m| ≤ maxScale)
    (short : (Binary.ofNat maxDigits).less
      (estimatedDigits base.normalized.unscaled.natAbs m) = false) :
    power base exponent = .ok (exactPower base.normalized m) := by
  have nonzero := ne_zero_of_last (normalized_last some)
  have digits := power_digits (Int.natAbs_ne_zero.mpr nonzero) short
  have below := lt_of_lt_of_le (Digits.lt_pow_count _) (Nat.pow_le_pow_right (by omega) digits)
  have small := exponent_small some plain scale below
  have fits : fitsWord 63 (m : Int) = true := (fits_word_iff 63 m).mpr (by omega)
  have exponent_nonzero : ¬ exponent.isZero = true := by
    rw [is_zero_iff, value, Int.cast_eq_zero]
    omega
  rw [power_plain value fits some plain exponent_nonzero, Int.natAbs_natCast,
    reach_iff.mpr ⟨small, scale, short⟩]
  exact if_neg (by omega)

theorem power_negative (value : exponent.toRat = (-m : Int)) (more : 0 < m)
    (scale : |base.normalized.scale * m| ≤ maxScale)
    (short : Exact.HasDigits quotientDigits (1 / base.toRat ^ m))
    (representable : Representable (1 / base.toRat ^ m)) :
    ∃ result, power base exponent = .ok result ∧ result.toRat = 1 / base.toRat ^ m := by
  have last := normalized_last some
  have nonzero := ne_zero_of_last last
  have form := exact_power_form last m
  have powered : (exactPower base.normalized m).toRat = base.toRat ^ m := by
    rw [exact_power_value, normalized_value]
  have some_power : (exactPower base.normalized m).toRat ≠ 0 := by
    rw [powered]
    exact pow_ne_zero m (mt (is_zero_iff base).mpr some)
  have power_digits : ¬ (10 : Int) ∣ (exactPower base.normalized m).unscaled := by
    rw [form]
    exact power_last last m
  have near : |(exactPower base.normalized m).scale| ≤ maxScale := by
    rw [form]
    exact scale
  rw [← powered] at short representable ⊢
  obtain ⟨found, quotient⟩ := reciprocal_found power_digits near some_power short representable "^"
  -- The power itself is short, so nothing but the rounding could go wrong.
  have few := few_of_inverse power_digits some_power short
  rw [form, Int.natAbs_pow] at few
  have base_few := lt_of_le_of_lt (Nat.le_self_pow more.ne' _) few
  have estimate := short_power_reached (Int.natAbs_ne_zero.mpr nonzero) more
    (safe_of_few base_few few)
  have small := exponent_small some plain scale
    (lt_trans few (Nat.pow_lt_pow_right (by omega) (by decide)))
  have fits : fitsWord 63 (-m : Int) = true := (fits_word_iff 63 _).mpr (by omega)
  have exponent_nonzero : ¬ exponent.isZero = true := by
    rw [is_zero_iff, value, Int.cast_eq_zero]
    omega
  refine ⟨one / exactPower base.normalized m, ?_, quotient⟩
  rw [power_plain value fits some plain exponent_nonzero, Int.natAbs_neg, Int.natAbs_natCast,
    reach_iff.mpr ⟨small, scale, estimate⟩]
  exact (if_pos (by omega)).trans found

end Plain

theorem estimate_iff (n m : Nat) :
    (Binary.ofNat maxDigits).less (estimatedDigits n m) = false ↔
      (estimatedDigits n m).toRat ≤ maxDigits := by
  rw [← Bool.not_eq_true, Binary.less_iff, max_digits_value, not_lt]
  rfl

theorem power_attained {base exponent result : Decimal} {n : Int} (value : exponent.toRat = n)
    (defined : n < 0 → base.toRat ≠ 0) (ok : power base exponent = .ok result)
    (exact : result.toRat = base.toRat ^ n) : Attained base n := by
  have computed := integer_power_cases base exponent
  rw [← power_of_integer value defined, ok] at computed
  generalize outcome : Except.ok result = output at computed
  cases computed with
  | one none =>
    rw [is_zero_iff, value, Int.cast_eq_zero] at none
    exact .simple (.inl none)
  | zero more nothing => exact .simple (.inr (.inl ((is_zero_iff base).mp nothing)))
  | unit unit =>
    rw [same_number_iff, abs_value, one_value] at unit
    exact .simple (.inr (.inr unit))
  | @reached m nonzero word reach =>
    have same : n = m := by
      have written := to_word_value word
      rwa [value, Int.cast_inj] at written
    subst same
    by_cases none : m = 0
    · exact .simple (.inl (by omega))
    · obtain ⟨-, scale, estimate⟩ := reach_iff.mp reach
      exact .positive (by omega) scale ((estimate_iff _ m).mp estimate)
  | @reciprocal m nonzero negative word reach =>
    have same : n = m := by
      have written := to_word_value word
      rwa [value, Int.cast_inj] at written
    subst same
    obtain ⟨-, scale, -⟩ := reach_iff.mp reach
    have some_power : (exactPower base.normalized n.natAbs).toRat ≠ 0 := by
      rw [exact_power_value, normalized_value]
      exact pow_ne_zero _ (mt (is_zero_iff base).mpr nonzero)
    refine .negative negative ?_ ?_
    · rwa [show n = -(n.natAbs : Int) by omega, mul_neg, abs_neg]
    · rw [← exact, (ensured outcome.symm).1]
      exact reciprocal_has_digits some_power
  | refused | overflow => cases outcome

theorem attained_computed {base exponent : Decimal} {n : Int} (value : exponent.toRat = n)
    (defined : n < 0 → base.toRat ≠ 0) (representable : Representable (base.toRat ^ n))
    (attained : Attained base n) :
    ∃ result, power base exponent = .ok result ∧ result.toRat = base.toRat ^ n := by
  have none : exponent.isZero = true ↔ n = 0 := by rw [is_zero_iff, value, Int.cast_eq_zero]
  have unit : base.abs.sameNumber one = true ↔ |base.toRat| = 1 := by
    rw [same_number_iff, abs_value, one_value]
  by_cases simple : n = 0 ∨ base.toRat = 0 ∨ |base.toRat| = 1
  · exact power_simple value defined (by rwa [none, is_zero_iff, unit])
  · obtain ⟨more, nonzero, other⟩ : n ≠ 0 ∧ base.toRat ≠ 0 ∧ |base.toRat| ≠ 1 := by
      rwa [not_or, not_or] at simple
    have some := mt (is_zero_iff base).mp nonzero
    have plain := mt unit.mp other
    cases attained with
    | simple plain => exact absurd plain simple
    | positive positive scale short =>
      obtain ⟨m, rfl⟩ := Int.eq_ofNat_of_zero_le positive.le
      have estimate := (estimate_iff _ m).mpr short
      refine ⟨_, power_positive some plain value (by omega) scale estimate, ?_⟩
      rw [exact_power_value, normalized_value, zpow_natCast]
    | negative less scale short =>
      obtain ⟨m, rfl⟩ : ∃ m : Nat, n = -m := ⟨n.natAbs, by omega⟩
      rw [zpow_neg, zpow_natCast, ← one_div] at short representable ⊢
      rw [mul_neg, abs_neg] at scale
      exact power_negative some plain value (by omega) scale short representable

/-- An integer power that has a form in range is computed exactly if and only if it is simple or
within these bounds. The power of the number without trailing zeros has its scale in range. For a
positive exponent it is not estimated longer than is allowed, and for a negative one the result has
at most a hundred significant digits. What is estimated too long has at least 249999 digits, and the
first of that many are seven nines, where an integer past the doubles counts as the next power of
two; what is not has at most the digits that are allowed. -/
theorem attained_powers_exact {base exponent : Decimal} {n : Int} (value : exponent.toRat = n)
    (defined : n < 0 → base.toRat ≠ 0) (representable : Representable (base.toRat ^ n)) :
    ((∃ result, power base exponent = .ok result ∧ result.toRat = base.toRat ^ n) ↔
      Attained base n) ∧
    ∀ u m : Nat, 0 < u → 0 < m →
      (reckoned u ^ m < safeBound → (estimatedDigits u m).toRat ≤ maxDigits) ∧
      ((estimatedDigits u m).toRat ≤ maxDigits → u ^ m < 10 ^ maxDigits) := by
  refine ⟨⟨?_, attained_computed value defined representable⟩, ?_⟩
  · rintro ⟨result, ok, exact⟩
    exact power_attained value defined ok exact
  · intro u m positive some
    rw [← estimate_iff]
    refine ⟨short_power_reached positive.ne' some, ?_⟩
    intro estimate
    exact lt_of_lt_of_le (Digits.lt_pow_count _)
      (Nat.pow_le_pow_right (by omega) (power_digits positive.ne' estimate))

theorem attained_powers_exact_of_tenth :
    (∃ result, power ⟨15, 1⟩ ⟨10, 0⟩ = .ok result ∧ result.toRat = toRat ⟨15, 1⟩ ^ (10 : Int)) ∧
    ∃ result, power ⟨2, 0⟩ ⟨-10, 0⟩ = .ok result ∧ result.toRat = toRat ⟨2, 0⟩ ^ (-10 : Int) := by
  constructor
  · have form : (⟨15, 1⟩ : Decimal).normalized = ⟨15, 1⟩ := by decide +kernel
    have value : toRat ⟨10, 0⟩ = (10 : Int) := by norm_num [toRat]
    have representable : Representable (toRat ⟨15, 1⟩ ^ (10 : Int)) :=
      ⟨⟨576650390625, 10⟩, by norm_num [toRat], by decide, by decide +kernel⟩
    obtain ⟨exactly, bracket⟩ := attained_powers_exact value (by omega) representable
    refine exactly.mpr (.positive (by omega) ?_ ?_)
    · rw [form]
      decide
    · rw [form]
      exact (bracket 15 10 (by omega) (by omega)).1
        (safe_of_few (by decide +kernel) (by decide +kernel))
  · have form : (⟨2, 0⟩ : Decimal).normalized = ⟨2, 0⟩ := by decide +kernel
    have value : toRat ⟨-10, 0⟩ = (-10 : Int) := by norm_num [toRat]
    have representable : Representable (toRat ⟨2, 0⟩ ^ (-10 : Int)) :=
      ⟨⟨9765625, 10⟩, by norm_num [toRat], by decide, by decide +kernel⟩
    obtain ⟨exactly, -⟩ :=
      attained_powers_exact value (fun _ => by norm_num [toRat]) representable
    refine exactly.mpr (.negative (by omega) ?_ ⟨9765625, -10, by decide +kernel,
      by norm_num [toRat]⟩)
    rw [form]
    decide

def longDigits : Nat := 2 * 10 ^ (maxDigits - 1) + 1

def longest : Decimal := ⟨longDigits, 0⟩

theorem longest_bounded : longest.Bounded := by
  have size : longDigits < 10 ^ maxDigits := by
    have ten : 10 ^ maxDigits = 10 * 10 ^ (maxDigits - 1) := by
      rw [← pow_succ', Nat.sub_add_cancel (by decide)]
    have positive : 0 < 10 ^ (maxDigits - 1) := Nat.pow_pos (by omega)
    rw [ten, longDigits]
    omega
  refine ⟨by decide, ?_⟩
  rw [← count_eq_written, longest, Int.natAbs_natCast]
  exact Digits.count_le (by decide) size

theorem longest_last : ¬ (10 : Int) ∣ longest.unscaled := by
  have zeros : 10 ∣ 10 ^ (maxDigits - 1) := dvd_pow_self 10 (by decide)
  intro divides
  have natural : 10 ∣ longDigits := Int.natCast_dvd_natCast.mp divides
  rw [longDigits] at natural
  omega

theorem two_le_long : 2 ≤ longDigits := by
  have positive : 0 < 10 ^ (maxDigits - 1) := Nat.pow_pos (by omega)
  rw [longDigits]
  omega

theorem longest_out_of_reach : longest.powerInReach 1 = some false := by
  have estimate := estimate_ge two_le_long one_pos
  have large : 249999 + 3 / 10 ≤ Real.logb 10 longDigits := by
    have places : ((maxDigits - 1 : Nat) : ℝ) = 249999 := by norm_num [maxDigits]
    have low : (2 : ℝ) * 10 ^ (maxDigits - 1) ≤ longDigits := by
      rw [longDigits]
      push_cast
      linarith
    have log := Real.logb_le_logb_of_le (b := 10) (by norm_num) (by positivity) low
    have two := log_two_ge
    rw [Real.logb_mul (by norm_num) (by positivity), Real.logb_pow,
      Real.logb_self_eq_one (by norm_num), mul_one, places] at log
    linarith
  have long : (Binary.ofNat maxDigits).less (estimatedDigits longest.unscaled.natAbs 1) = true := by
    rw [longest, Int.natAbs_natCast, Binary.less_iff, max_digits_value, ← Rat.cast_lt (K := ℝ)]
    push_cast at estimate ⊢
    linarith
  have word : 1 < twoPow 63 ∧ fitsWord 63 (longest.scale * (1 : Nat)) = true := by decide
  simp only [powerInReach, long, if_pos word, Bool.not_true, Bool.and_false]
  rfl

theorem longest_refused : power longest one = .error (.of (.numberOutOfRange "^")) := by
  have form := normalized_of_last longest_last
  have some : ¬ longest.isZero = true := by
    rw [isZero, beq_iff_eq]
    exact ne_zero_of_last longest_last
  have plain : ¬ longest.abs.sameNumber one = true := by
    have value : longest.toRat = longDigits := by
      rw [longest, to_rat_mk, zpow_zero, div_one, Int.cast_natCast]
    have more := two_le_long
    rw [same_number_iff, abs_value, one_value, value, Nat.abs_cast, Nat.cast_eq_one]
    omega
  rw [power_plain (n := 1) (by rw [one_value, Int.cast_one]) (by decide) some plain (by decide),
    form, Int.natAbs_one, longest_out_of_reach]

theorem large_scale_refused : power ⟨10, 0⟩ ⟨100001, 0⟩ = .error (.of (.numberOutOfRange "^")) := by
  have form : (⟨10, 0⟩ : Decimal).normalized = ⟨1, -1⟩ := by decide +kernel
  have far : (⟨1, -1⟩ : Decimal).powerInReach 100001 = some false := by
    have word : 100001 < twoPow 63 ∧ fitsWord 63 (-1 * (100001 : Nat)) = true := by decide
    have magnitude : scaleMagnitude (-1 * (100001 : Nat)) = some 100001 := by decide
    have above : decide ((100001 : Int) ≤ maxScale) = false := by decide
    simp only [powerInReach, if_pos word, magnitude, Option.map_some, above, Bool.false_and]
  rw [power_plain (n := 100001) (by norm_num [toRat]) (by decide) (by decide) (by decide +kernel)
    (by decide), form, show (100001 : Int).natAbs = 100001 from rfl, far]

theorem long_reciprocal_eq :
    power ⟨2, 0⟩ ⟨-200, 0⟩ = ensureInRange (one / exactPower ⟨2, 0⟩ 200) "^" := by
  have form : (⟨2, 0⟩ : Decimal).normalized = ⟨2, 0⟩ := by decide +kernel
  have reach : (⟨2, 0⟩ : Decimal).powerInReach 200 = some true :=
    reach_iff.mpr ⟨by omega, by decide, short_power_reached (by decide) (by omega)
      (safe_of_few (by decide +kernel) (by decide +kernel))⟩
  rw [power_plain (n := -200) (by norm_num [toRat]) (by decide) (by decide) (by decide +kernel)
    (by decide), form, show (-200 : Int).natAbs = 200 from rfl, reach]
  exact if_pos (by omega)

theorem long_reciprocal_rounded {result : Decimal} (ok : power ⟨2, 0⟩ ⟨-200, 0⟩ = .ok result) :
    result.toRat ≠ toRat ⟨5 ^ 200, 200⟩ := by
  rw [long_reciprocal_eq] at ok
  have rounded : (⟨5 ^ 200, 200⟩ : Decimal).sameNumber
      (one / exactPower ⟨2, 0⟩ 200) = false := by decide +kernel
  intro same
  rw [(ensured ok).1, eq_comm, ← same_number_iff, rounded] at same
  cases same

structure Missed (base exponent : Decimal) (n : Int) : Prop where
  bounded : base.Bounded
  value : exponent.toRat = n
  defined : n < 0 → base.toRat ≠ 0
  representable : Representable (base.toRat ^ n)
  missed : ∀ result, power base exponent = .ok result → result.toRat ≠ base.toRat ^ n

/-- Three powers in range that are missed: without its trailing zeros ten to the hundred thousand
and first has a scale out of range, one over two to the two hundredth is rounded, and a number of
all the digits that are allowed is estimated too long for its own first power. -/
theorem fitting_powers_missed :
    Missed ⟨10, 0⟩ ⟨100001, 0⟩ 100001 ∧ Missed ⟨2, 0⟩ ⟨-200, 0⟩ (-200) ∧ Missed longest one 1 := by
  have hundreds : toRat ⟨5 ^ 200, 200⟩ = toRat ⟨2, 0⟩ ^ (-200 : Int) := by
    rw [to_rat_mk, to_rat_mk, zpow_zero, div_one]
    norm_num
  have zeros : toRat ⟨10, -100000⟩ = toRat ⟨10, 0⟩ ^ (100001 : Int) := by
    rw [to_rat_mk, to_rat_mk, zpow_zero, div_one, zpow_neg, div_inv_eq_mul, Int.cast_ofNat,
      ← zpow_one_add₀ (by norm_num)]
    rfl
  refine ⟨⟨?_, ?_, by omega, ?_, refused_not_ok large_scale_refused⟩, ⟨?_, ?_, ?_, ?_, ?_⟩,
    ⟨longest_bounded, one_value, by omega, ?_, refused_not_ok longest_refused⟩⟩
  · exact bounded_of_few (by decide)
  · norm_num [toRat]
  · exact ⟨⟨10, -100000⟩, zeros, by decide, by decide +kernel⟩
  · exact bounded_of_few (by decide)
  · norm_num [toRat]
  · exact fun _ => by norm_num [toRat]
  · exact ⟨⟨5 ^ 200, 200⟩, hundreds, by decide, by decide +kernel⟩
  · intro result ok
    rw [← hundreds]
    exact long_reciprocal_rounded ok
  · exact ⟨longest, (zpow_one _).symm, longest_bounded⟩

end Formula.Decimal
