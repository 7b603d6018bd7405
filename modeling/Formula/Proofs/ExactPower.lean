import Formula.Decimal.Power
import Formula.Proofs.Rational
import Formula.Proofs.ScaleWords

set_option autoImplicit false

namespace Formula.Decimal

theorem refused_not_ok {outcome : Result Decimal} {stop : Stop Error} {P : Decimal → Prop}
    (refused : outcome = .error stop) : ∀ result, outcome = .ok result → P result := by
  intro result ok
  rw [refused] at ok
  cases ok

theorem squaring_value (result square : Decimal) (exponent : Nat) :
    (squaring result square exponent).toRat = result.toRat * square.toRat ^ exponent := by
  -- On the exponent, which is halved; result and square are others in the next round.
  induction exponent using Nat.strongRecOn generalizing result square with
  | ind exponent ih =>
    rw [squaring]
    by_cases done : exponent = 0
    · rw [if_pos done, done, pow_zero, mul_one]
    · rw [if_neg done, ih (exponent / 2) (by omega)]
      have halves : square.toRat ^ exponent =
          square.toRat ^ (exponent % 2) * (square.toRat * square.toRat) ^ (exponent / 2) := by
        rw [← pow_two, ← pow_mul, ← pow_add, Nat.mod_add_div]
      have squared : (if exponent = 1 then square else square * square).toRat ^ (exponent / 2) =
          (square.toRat * square.toRat) ^ (exponent / 2) := by
        by_cases last : exponent = 1
        · rw [last, show 1 / 2 = 0 from rfl, pow_zero, pow_zero]
        · rw [if_neg last, mul_value]
      rw [halves, squared, ← mul_assoc]
      congr 1
      by_cases odd : exponent % 2 = 1
      · rw [if_pos odd, odd, mul_value, pow_one]
      · rw [if_neg odd, show exponent % 2 = 0 by omega, pow_zero, mul_one]

theorem exact_power_value (base : Decimal) (exponent : Nat) :
    (exactPower base exponent).toRat = base.toRat ^ exponent := by
  rw [exactPower, squaring_value, one_value, one_mul]

theorem to_word_value {d : Decimal} {n : Int} (found : d.toWord? = some n) : d.toRat = n :=
  to_int_value (Option.filter_eq_some_iff.mp found).1

theorem to_word_of_value {d : Decimal} {n : Int} (value : d.toRat = n)
    (word : fitsWord 63 n = true) : d.toWord? = some n := by
  have bounds := (fits_word_iff 63 n).mp word
  have small : |n| < 10 ^ 40 := abs_lt.mpr (by omega)
  rw [toWord?, to_int_of_value value small]
  exact Option.filter_eq_some_iff.mpr ⟨rfl, word⟩

theorem unit_power {base exponent : Decimal} {n : Int} (value : exponent.toRat = n)
    (unit : base.abs.sameNumber one = true) :
    (if base.isNegative && exponent.isOdd then -one else one).toRat = base.toRat ^ n := by
  have magnitude : |base.toRat| = 1 := by
    rwa [same_number_iff, abs_value, one_value] at unit
  have odd := is_odd_iff value
  rcases eq_or_eq_neg_of_abs_eq magnitude with plus | minus
  · have positive : base.isNegative = false := by
      rw [Bool.eq_false_iff, ne_eq, is_negative_iff, plus]
      norm_num
    rw [positive, Bool.false_and, if_neg Bool.false_ne_true, plus, one_zpow, one_value]
  · have negative : base.isNegative = true := by
      rw [is_negative_iff, minus]
      norm_num
    rw [negative, Bool.true_and, minus]
    rcases Int.even_or_odd n with even | uneven
    · have not_odd : ¬ exponent.isOdd = true := by
        have := Int.even_iff.mp even
        rw [odd]
        omega
      rw [even.neg_one_zpow, if_neg not_odd, one_value]
    · rw [uneven.neg_one_zpow, if_pos (odd.mpr (Int.odd_iff.mp uneven)), neg_value, one_value]

def LowestPower (base exponent : Decimal) : Prop :=
  ∃ n : Int, exponent.toRat = n ∧ n.natAbs < 2 ^ 63 ∧
    base.normalized.scale * n.natAbs = lowestScale

theorem reach_none {base : Decimal} {m : Nat} :
    powerInReach base m = none ↔ m < 2 ^ 63 ∧ base.scale * m = lowestScale := by
  rw [powerInReach]
  split
  · rename_i fits
    rw [Option.map_eq_none_iff, scale_magnitude_none]
    exact (and_iff_right fits.1).symm
  · rename_i unfit
    refine iff_of_false nofun ?_
    rintro ⟨small, lowest⟩
    exact unfit ⟨small, lowest ▸ by decide⟩

theorem reach_iff {base : Decimal} {m : Nat} :
    powerInReach base m = some true ↔ m < 2 ^ 63 ∧ |base.scale * m| ≤ maxScale ∧
      (Binary.ofNat maxDigits).less (estimatedDigits base.unscaled.natAbs m) = false := by
  by_cases lost : powerInReach base m = none
  · rw [lost]
    refine iff_of_false nofun ?_
    rintro ⟨-, near, -⟩
    rw [(reach_none.mp lost).2] at near
    exact absurd near (by decide)
  · rw [powerInReach] at lost ⊢
    split
    · rename_i fits
      have other : base.scale * m ≠ lowestScale := by
        rwa [if_pos fits, Option.map_eq_none_iff, scale_magnitude_none] at lost
      have small : m < 2 ^ 63 := fits.1
      rw [scale_magnitude_some other, Option.map_some, Option.some_inj, Bool.and_eq_true,
        decide_eq_true_iff, Bool.not_eq_true', and_iff_right small]
    · rename_i unfit
      refine iff_of_false nofun ?_
      rintro ⟨small, near, -⟩
      exact unfit ⟨small, fits_of_lt (lt_of_le_of_lt near (by decide))⟩

-- All that an integer power comes from, in the order in which it is looked for.
inductive PowerCase (base exponent : Decimal) : Result Decimal → Prop where
  | one (none : exponent.isZero = true) : PowerCase base exponent (.ok one)
  | zero (more : ¬ exponent.isZero = true) (nothing : base.isZero = true) :
      PowerCase base exponent (.ok zero)
  | unit (unit : base.abs.sameNumber one = true) :
      PowerCase base exponent (.ok (if base.isNegative && exponent.isOdd then -one else one))
  | reached {n : Nat} (nonzero : ¬ base.isZero = true) (word : exponent.toWord? = some (n : Int))
      (reach : powerInReach base.normalized n = some true) :
      PowerCase base exponent (.ok (exactPower base.normalized n))
  | reciprocal {n : Int} (nonzero : ¬ base.isZero = true) (negative : n < 0)
      (word : exponent.toWord? = some n)
      (reach : powerInReach base.normalized n.natAbs = some true) :
      PowerCase base exponent (ensureInRange (one / exactPower base.normalized n.natAbs) "^")
  | refused : PowerCase base exponent (.error (.of (.numberOutOfRange "^")))
  | overflow (lowest : LowestPower base exponent) : PowerCase base exponent (.error .panicked)

theorem integer_power_cases (base exponent : Decimal) :
    PowerCase base exponent (integerPower base exponent) := by
  rw [integerPower]
  by_cases none : exponent.isZero = true
  · rw [if_pos none]
    exact .one none
  · rw [if_neg none]
    by_cases nothing : base.isZero = true
    · rw [if_pos nothing]
      exact .zero none nothing
    · rw [if_neg nothing]
      by_cases unit : base.abs.sameNumber one = true
      · rw [if_pos unit]
        exact .unit unit
      · rw [if_neg unit]
        cases word : exponent.toWord? with
        | none => exact .refused
        | some n =>
          dsimp only
          split
          · rename_i reach
            by_cases negative : n < 0
            · rw [if_pos negative]
              exact .reciprocal nothing negative word reach
            · rw [if_neg negative]
              obtain ⟨m, rfl⟩ := Int.eq_ofNat_of_zero_le (not_lt.mp negative)
              exact .reached nothing word reach
          · exact .refused
          · rename_i lost
            exact .overflow ⟨n, to_word_value word, reach_none.mp lost⟩

theorem power_of_integer {base exponent : Decimal} {n : Int} (value : exponent.toRat = n)
    (defined : n < 0 → base.toRat ≠ 0) : power base exponent = integerPower base exponent := by
  have integer : exponent.isInteger = true := (is_integer_iff exponent).mpr ⟨n, value⟩
  have division : ¬ (base.isZero && exponent.isNegative) = true := by
    rw [Bool.and_eq_true, is_zero_iff, is_negative_iff, value]
    rintro ⟨nothing, negative⟩
    exact defined (by exact_mod_cast negative) nothing
  rw [power, if_neg division, if_pos integer]

theorem power_plain {base exponent : Decimal} {n : Int} (value : exponent.toRat = n)
    (fits : fitsWord 63 n = true) (some : ¬ base.isZero = true)
    (plain : ¬ base.abs.sameNumber one = true) (more : ¬ exponent.isZero = true) :
    power base exponent =
      match powerInReach base.normalized n.natAbs with
      | Option.some true =>
        if n < 0 then ensureInRange (one / exactPower base.normalized n.natAbs) "^"
        else .ok (exactPower base.normalized n.natAbs)
      | Option.some false => .error (.of (.numberOutOfRange "^"))
      | none => .error .panicked := by
  have computed : power base exponent = integerPower base exponent :=
    power_of_integer value fun _ => mt (is_zero_iff base).mpr some
  rcases reach : base.normalized.powerInReach n.natAbs with _ | _ | _ <;>
    simp only [computed, integerPower, if_neg more, if_neg some, if_neg plain,
      to_word_of_value value fits, reach]

theorem integer_power_value (base : Decimal) {exponent : Decimal} {n : Nat}
    (value : exponent.toRat = n) :
    (∃ result, integerPower base exponent = .ok result ∧ result.toRat = base.toRat ^ n) ∨
      integerPower base exponent = .error (.of (.numberOutOfRange "^")) ∨
      LowestPower base exponent ∧ integerPower base exponent = .error .panicked := by
  have computed := integer_power_cases base exponent
  generalize integerPower base exponent = outcome at computed ⊢
  cases computed with
  | one none =>
    rw [is_zero_iff, value, Nat.cast_eq_zero] at none
    exact .inl ⟨_, rfl, by rw [none, pow_zero, one_value]⟩
  | zero more nothing =>
    have positive : n ≠ 0 := by
      rintro rfl
      exact more ((is_zero_iff _).mpr (by rw [value, Nat.cast_zero]))
    exact .inl ⟨_, rfl, by rw [zero_value, (is_zero_iff base).mp nothing, zero_pow positive]⟩
  | unit unit =>
    have powered := unit_power (n := n) value unit
    rw [zpow_natCast] at powered
    exact .inl ⟨_, rfl, powered⟩
  | @reached m nonzero word reach =>
    have same : m = n := by
      have written := to_word_value word
      rw [value] at written
      exact_mod_cast written.symm
    subst same
    exact .inl ⟨_, rfl, by rw [exact_power_value, normalized_value]⟩
  | @reciprocal m nonzero negative word reach =>
    have written := to_word_value word
    rw [value] at written
    have natural : (n : Int) = m := by exact_mod_cast written
    omega
  | refused => exact .inr (.inl rfl)
  | overflow lowest => exact .inr (.inr ⟨lowest, rfl⟩)

theorem power_value (base : Decimal) {exponent : Decimal} {n : Nat} (value : exponent.toRat = n) :
    (∃ result, power base exponent = .ok result ∧ result.toRat = base.toRat ^ n) ∨
      power base exponent = .error (.of (.numberOutOfRange "^")) ∨
      LowestPower base exponent ∧ power base exponent = .error .panicked := by
  rw [power_of_integer (n := n) (by rw [value, Int.cast_natCast]) (by omega)]
  exact integer_power_value base value

end Formula.Decimal
