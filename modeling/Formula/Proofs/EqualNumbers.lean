import Formula.Evaluation
import Formula.Proofs.PowerRange
import Formula.Proofs.ResultScales
import Formula.Proofs.RoundedDigits

set_option autoImplicit false

namespace Formula

def onNumbers (operator : BinaryOp) (a b : Decimal) (span : Span) : Result Value :=
  applyBinary operator (.number a) (.number b) span

def sameOutcome : Result Value → Result Value → Bool
  | .ok u, .ok v => u.same v
  | .error e, .error f => e == f
  | _, _ => false

def OutOfRange (outcome : Result Value) : Prop :=
  ∃ e operation, outcome = .error (.failed e) ∧ e.cause = .numberOutOfRange operation

def SameInRange (x y : Result Value) : Prop :=
  OutOfRange x ∨ OutOfRange y ∨ sameOutcome x y = true

-- The same outcome, or two numbers that differ, next to a quotient, only behind a hundred digits.
def NearlySame (q : ℚ) (x y : Result Value) : Prop :=
  sameOutcome x y = true ∨
    ∃ d d' : Decimal, x = .ok (.number d) ∧ y = .ok (.number d') ∧
      |d.toRat - d'.toRat| ≤ |q| / 10 ^ 99

theorem same_outcome_refl (x : Result Value) : sameOutcome x x = true := by
  cases x with
  | error e => exact beq_self_eq_true e
  | ok v =>
    cases v with
    | number d => exact (Decimal.same_number_iff d d).mpr rfl
    | text s => exact beq_self_eq_true s
    | boolean b => exact beq_self_eq_true b

theorem checked_in_range {d : Decimal} (range : d.inRange = some true) {operator : BinaryOp}
    {span : Span} : checkedNumber operator span d = .ok (.number d) := by
  rw [checkedNumber, Decimal.ensureInRange, Decimal.by_range_in range]
  rfl

theorem checked_outcomes {d : Decimal} (inner : |d.scale| < 2 ^ 63) (operator : BinaryOp)
    (span : Span) :
    checkedNumber operator span d = .ok (.number d) ∨
      checkedNumber operator span d =
        .error (.located (.numberOutOfRange operator.symbol) span) := by
  rw [checkedNumber]
  rcases Decimal.ensured_outcomes inner operator.symbol with ok | refused
  · rw [ok]
    exact .inl rfl
  · rw [refused]
    exact .inr rfl

section

variable {d d' : Decimal} (inner : |d.scale| < 2 ^ 63) (inner' : |d'.scale| < 2 ^ 63)

include inner

theorem checked_cases (operator : BinaryOp) (span : Span) :
    checkedNumber operator span d = .ok (.number d) ∨
      OutOfRange (checkedNumber operator span d) :=
  (checked_outcomes inner operator span).imp_right fun refused => ⟨_, _, refused, rfl⟩

include inner'

theorem checked_same (same : d.toRat = d'.toRat) (operator : BinaryOp) (span : Span) :
    SameInRange (checkedNumber operator span d) (checkedNumber operator span d') := by
  rcases checked_cases inner operator span with result | out
  · rcases checked_cases inner' operator span with result' | out'
    · rw [result, result']
      exact .inr (.inr ((Decimal.same_number_iff d d').mpr same))
    · exact .inr (.inl out')
  · exact .inl out

theorem checked_near {q : ℚ} (near : |d.toRat - d'.toRat| ≤ |q| / 10 ^ 99)
    (operator : BinaryOp) (span : Span) :
    OutOfRange (checkedNumber operator span d) ∨ OutOfRange (checkedNumber operator span d') ∨
      NearlySame q (checkedNumber operator span d) (checkedNumber operator span d') := by
  rcases checked_cases inner operator span with result | out
  · rcases checked_cases inner' operator span with result' | out'
    · exact .inr (.inr (.inr ⟨d, d', result, result', near⟩))
    · exact .inr (.inl out')
  · exact .inl out

end

namespace Decimal

theorem rem_in_range {a b : Decimal} (rangeA : a.inRange = some true)
    (rangeB : b.inRange = some true) (nonzero : b.unscaled ≠ 0) :
    (a % b).inRange = some true := by
  rw [in_range_iff_bounded] at rangeA rangeB ⊢
  change Bounded ⟨Int.tmod (a.unscaledAt (a.commonScale b)) (b.unscaledAt (a.commonScale b)),
    a.commonScale b⟩
  rw [commonScale]
  by_cases less : a.scale < b.scale
  · rw [if_pos less, unscaled_at_scale]
    have below := Nat.mod_lt (a.unscaledAt b.scale).natAbs (Int.natAbs_pos.mpr nonzero)
    rw [← Int.natAbs_tmod] at below
    exact rangeB.of_le rfl below.le
  · rw [if_neg less, unscaled_at_scale]
    have above := Nat.mod_le a.unscaled.natAbs (b.unscaledAt a.scale).natAbs
    rw [← Int.natAbs_tmod] at above
    exact rangeA.of_le rfl above

variable {a a' b b' : Decimal}

theorem is_zero_congr (same : a.toRat = a'.toRat) : a.isZero = a'.isZero := by
  rw [Bool.eq_iff_iff, is_zero_iff, is_zero_iff, same]

theorem is_negative_congr (same : a.toRat = a'.toRat) : a.isNegative = a'.isNegative := by
  rw [Bool.eq_iff_iff, is_negative_iff, is_negative_iff, same]

theorem power_congr (sameA : a.toRat = a'.toRat) (sameB : b.toRat = b'.toRat)
    (integer : b.isInteger = true) : power a b = power a' b' := by
  have base := (normalized_eq_iff a a').mpr sameA
  have exponent := (normalized_eq_iff b b').mpr sameB
  have unit : a.abs.sameNumber one = a'.abs.sameNumber one := by
    rw [Bool.eq_iff_iff, same_number_iff, same_number_iff, abs_value, abs_value, sameA]
  have integer' : b'.isInteger = true := by
    rwa [isInteger, ← exponent]
  have odd : b.isOdd = b'.isOdd := by
    rw [isOdd, isOdd, exponent]
  have word : b.toWord? = b'.toWord? := by
    rw [toWord?, toWord?, toInt?, toInt?, exponent]
  rw [power, power, is_zero_congr sameA, is_negative_congr sameB, if_pos integer, if_pos integer',
    integerPower, integerPower, is_zero_congr sameA, is_zero_congr sameB, unit,
    is_negative_congr sameA, odd, word, base]

end Decimal

def Exact.FewDigits (q : ℚ) : Prop :=
  ∃ m k : Int, |m| < 10 ^ Decimal.quotientDigits ∧ q = m * 10 ^ k

variable {a a' b b' : Decimal}

theorem add_eq (a b : Decimal) (span : Span) :
    onNumbers .add a b span = checkedNumber .add span (a + b) := rfl

theorem subtract_eq (a b : Decimal) (span : Span) :
    onNumbers .subtract a b span = checkedNumber .subtract span (a - b) := rfl

theorem multiply_eq (a b : Decimal) (span : Span) :
    onNumbers .multiply a b span = checkedNumber .multiply span (a * b) := rfl

theorem divide_eq (a b : Decimal) (span : Span) :
    onNumbers .divide a b span =
      if b.isZero then .error (.located .divisionByZero span)
      else checkedNumber .divide span (a / b) := rfl

theorem remainder_eq (a b : Decimal) (span : Span) :
    onNumbers .remainder a b span =
      if b.isZero then .error (.located .divisionByZero span)
      else checkedNumber .remainder span (a % b) := rfl

theorem power_eq (a b : Decimal) (span : Span) :
    onNumbers .power a b span = atNode span ((a.power b).map Value.number) := rfl

section

variable (rangeA : a.Bounded) (rangeA' : a'.Bounded) (rangeB : b.Bounded) (rangeB' : b'.Bounded)

include rangeA rangeA' rangeB rangeB'

theorem divided_same (sameA : a.toRat = a'.toRat) (sameB : b.toRat = b'.toRat)
    (kept : Exact.FewDigits (a.toRat / b.toRat) ∨ a.keptDigits b = a'.keptDigits b')
    (span : Span) : SameInRange (onNumbers .divide a b span) (onNumbers .divide a' b' span) := by
  rw [divide_eq, divide_eq, ← Decimal.is_zero_congr sameB]
  by_cases zero : b.isZero = true
  · rw [if_pos zero, if_pos zero]
    exact .inr (.inr (same_outcome_refl _))
  · have nonzero : b.toRat ≠ 0 := mt (Decimal.is_zero_iff b).mpr zero
    rw [if_neg zero, if_neg zero]
    apply checked_same (Decimal.div_scale_inner rangeA rangeB).2
      (Decimal.div_scale_inner rangeA' rangeB').2
    rw [Decimal.div_value a nonzero, Decimal.div_value a' (sameB ▸ nonzero), ← sameA, ← sameB]
    rcases kept with few | digits
    · rw [Decimal.kept_of_has_digits few, Decimal.kept_of_has_digits few]
    · rw [digits]

theorem divided_near (sameA : a.toRat = a'.toRat) (sameB : b.toRat = b'.toRat) (span : Span) :
    OutOfRange (onNumbers .divide a b span) ∨ OutOfRange (onNumbers .divide a' b' span) ∨
      NearlySame (a.toRat / b.toRat) (onNumbers .divide a b span)
        (onNumbers .divide a' b' span) := by
  rw [divide_eq, divide_eq, ← Decimal.is_zero_congr sameB]
  by_cases zero : b.isZero = true
  · rw [if_pos zero, if_pos zero]
    exact .inr (.inr (.inl (same_outcome_refl _)))
  · have nonzero : b.toRat ≠ 0 := mt (Decimal.is_zero_iff b).mpr zero
    rw [if_neg zero, if_neg zero]
    apply checked_near (Decimal.div_scale_inner rangeA rangeB).2
      (Decimal.div_scale_inner rangeA' rangeB').2
    rw [Decimal.div_value a nonzero, Decimal.div_value a' (sameB ▸ nonzero), ← sameA, ← sameB]
    have left := Decimal.kept_error a b (a.toRat / b.toRat)
    have right := Decimal.kept_error a' b' (a.toRat / b.toRat)
    generalize a.toRat / b.toRat = q at left right ⊢
    rw [abs_sub_comm] at right
    calc
      _ ≤ |Exact.kept (a.keptDigits b) q - q| + |q - Exact.kept (a'.keptDigits b') q| :=
        abs_sub_le _ _ _
      _ ≤ |q| / 2 / 10 ^ 99 + |q| / 2 / 10 ^ 99 := add_le_add left right
      _ = |q| / 10 ^ 99 := by ring

theorem exact_operator_same {operator : BinaryOp}
    (member : operator ∈ [BinaryOp.add, .subtract, .multiply])
    (sameA : a.toRat = a'.toRat) (sameB : b.toRat = b'.toRat) (span : Span) :
    SameInRange (onNumbers operator a b span) (onNumbers operator a' b' span) := by
  simp only [List.mem_cons, List.not_mem_nil, or_false] at member
  rcases member with rfl | rfl | rfl
  · rw [add_eq, add_eq]
    refine checked_same (Decimal.add_scale_inner rangeA rangeB)
      (Decimal.add_scale_inner rangeA' rangeB') ?_ .add span
    rw [Decimal.add_value, Decimal.add_value, sameA, sameB]
  · rw [subtract_eq, subtract_eq]
    refine checked_same (Decimal.sub_scale_inner rangeA rangeB)
      (Decimal.sub_scale_inner rangeA' rangeB') ?_ .subtract span
    rw [Decimal.sub_value, Decimal.sub_value, sameA, sameB]
  · rw [multiply_eq, multiply_eq]
    refine checked_same (Decimal.mul_scale_inner rangeA rangeB)
      (Decimal.mul_scale_inner rangeA' rangeB') ?_ .multiply span
    rw [Decimal.mul_value, Decimal.mul_value, sameA, sameB]

end

theorem remainder_same (rangeA : a.inRange = some true) (rangeA' : a'.inRange = some true)
    (rangeB : b.inRange = some true) (rangeB' : b'.inRange = some true) (sameA : a.toRat = a'.toRat)
    (sameB : b.toRat = b'.toRat) (span : Span) :
    sameOutcome (onNumbers .remainder a b span) (onNumbers .remainder a' b' span) = true := by
  rw [remainder_eq, remainder_eq, ← Decimal.is_zero_congr sameB]
  by_cases zero : b.isZero = true
  · rw [if_pos zero, if_pos zero]
    exact same_outcome_refl _
  · have nonzero : b.toRat ≠ 0 := mt (Decimal.is_zero_iff b).mpr zero
    have nonzero' : b'.toRat ≠ 0 := sameB ▸ nonzero
    have range := Decimal.rem_in_range rangeA rangeB (mt (Decimal.to_rat_eq_zero b).mpr nonzero)
    have range' :=
      Decimal.rem_in_range rangeA' rangeB' (mt (Decimal.to_rat_eq_zero b').mpr nonzero')
    rw [if_neg zero, if_neg zero, checked_in_range range, checked_in_range range']
    apply (Decimal.same_number_iff _ _).mpr
    rw [Decimal.rem_value a nonzero, Decimal.rem_value a' nonzero', sameA, sameB]

/-- Remainders and integer powers of equal numbers are equal, or fail alike. So are sums,
differences, products and quotients, as long as the forms of the results are in range; but of a
quotient with more than a hundred digits different forms may keep different numbers of digits, and
then the results differ only behind the hundredth. -/
theorem equal_numbers_interchangeable (rangeA : a.inRange = some true)
    (rangeA' : a'.inRange = some true) (rangeB : b.inRange = some true)
    (rangeB' : b'.inRange = some true) (sameA : a.sameNumber a' = true)
    (sameB : b.sameNumber b' = true) (span : Span) :
    sameOutcome (onNumbers .remainder a b span) (onNumbers .remainder a' b' span) = true ∧
      (b.isInteger = true →
        sameOutcome (onNumbers .power a b span) (onNumbers .power a' b' span) = true) ∧
      (∀ operator ∈ [BinaryOp.add, .subtract, .multiply],
        SameInRange (onNumbers operator a b span) (onNumbers operator a' b' span)) ∧
      (Exact.FewDigits (a.toRat / b.toRat) ∨ a.keptDigits b = a'.keptDigits b' →
        SameInRange (onNumbers .divide a b span) (onNumbers .divide a' b' span)) ∧
      (OutOfRange (onNumbers .divide a b span) ∨ OutOfRange (onNumbers .divide a' b' span) ∨
        NearlySame (a.toRat / b.toRat) (onNumbers .divide a b span)
          (onNumbers .divide a' b' span)) := by
  rw [Decimal.same_number_iff] at sameA sameB
  have remainder := remainder_same rangeA rangeA' rangeB rangeB' sameA sameB span
  rw [Decimal.in_range_iff_bounded] at rangeA rangeA' rangeB rangeB'
  refine ⟨remainder, ?_, ?_, ?_,
    divided_near rangeA rangeA' rangeB rangeB' sameA sameB span⟩
  · intro integer
    rw [power_eq, power_eq, Decimal.power_congr sameA sameB integer]
    exact same_outcome_refl _
  · intro operator member
    exact exact_operator_same rangeA rangeA' rangeB rangeB' member sameA sameB span
  · intro kept
    exact divided_same rangeA rangeA' rangeB rangeB' sameA sameB kept span

theorem equal_numbers_interchangeable_of_zeros :
    sameOutcome (onNumbers .remainder ⟨250, 2⟩ ⟨1, -3⟩ ⟨0, 0⟩)
        (onNumbers .remainder ⟨25, 1⟩ ⟨1000, 0⟩ ⟨0, 0⟩) = true ∧
      sameOutcome (onNumbers .power ⟨250, 2⟩ ⟨1, -3⟩ ⟨0, 0⟩)
        (onNumbers .power ⟨25, 1⟩ ⟨1000, 0⟩ ⟨0, 0⟩) = true := by
  have same := @equal_numbers_interchangeable ⟨250, 2⟩ ⟨25, 1⟩ ⟨1, -3⟩ ⟨1000, 0⟩
    (by decide +kernel) (by decide +kernel) (by decide +kernel) (by decide +kernel)
    (by decide +kernel) (by decide +kernel) ⟨0, 0⟩
  exact ⟨same.1, same.2.1 (by decide +kernel)⟩

structure ToldApart (operator : BinaryOp) (a a' b b' : Decimal) : Prop where
  inRange : ∀ d ∈ [a, a', b, b'], d.inRange = some true
  sameLeft : a.sameNumber a' = true
  sameRight : b.sameNumber b' = true
  outcomes : sameOutcome (onNumbers operator a b ⟨0, 0⟩) (onNumbers operator a' b' ⟨0, 0⟩) = false

theorem told_apart_of_check {operator : BinaryOp} {a a' b b' : Decimal}
    (check : ([a, a', b, b'].all (·.inRange = some true) && a.sameNumber a' && b.sameNumber b' &&
      !sameOutcome (onNumbers operator a b ⟨0, 0⟩) (onNumbers operator a' b' ⟨0, 0⟩)) = true) :
    ToldApart operator a a' b b' := by
  simp only [Bool.and_eq_true, Bool.not_eq_true', List.all_eq_true, decide_eq_true_iff] at check
  obtain ⟨⟨⟨range, left⟩, right⟩, outcomes⟩ := check
  exact ⟨range, left, right, outcomes⟩

theorem range_told_apart {operator : BinaryOp} {span : Span} {d d' : Decimal}
    (inside : d.inRange = some true) (outside : d'.inRange = some false) :
    sameOutcome (checkedNumber operator span d) (checkedNumber operator span d') = false := by
  rw [checked_in_range inside, checkedNumber, Decimal.ensureInRange, Decimal.byRange, outside]
  rfl

namespace Decimal

theorem in_range_of_short {d : Decimal} (near : |d.scale| ≤ maxScale)
    (short : d.unscaled.natAbs < tenPow maxDigits) : d.inRange = some true := by
  rw [ten_pow_eq] at short
  rw [in_range_iff_bounded]
  refine ⟨near, ?_⟩
  rw [← count_eq_written]
  exact Digits.count_le (by decide) short

theorem out_of_range_of_long {d : Decimal} (near : |d.scale| ≤ maxScale)
    (long : tenPow maxDigits ≤ d.unscaled.natAbs) : d.inRange = some false := by
  rw [ten_pow_eq] at long
  rw [in_range_iff_past]
  refine ⟨inner_off_lowest (lt_of_le_of_lt near (by decide)), ?_⟩
  intro range
  have short := range.short
  rw [← count_eq_written] at short
  have below : d.unscaled.natAbs < 10 ^ maxDigits :=
    lt_of_lt_of_le (Digits.lt_pow_count _) (Nat.pow_le_pow_right (by omega) short)
  exact absurd long (not_le.mpr below)

def spelledOne (zeros : Nat) : Decimal := ⟨tenPow zeros, zeros⟩

theorem spelled_one_value (zeros : Nat) : (spelledOne zeros).toRat = 1 := by
  rw [spelledOne, to_rat_mk, ten_pow_eq, zpow_natCast]
  push_cast
  exact div_self (by positivity)

theorem one_same_spelled (zeros : Nat) : one.sameNumber (spelledOne zeros) = true := by
  rw [same_number_iff, one_value, spelled_one_value]

def longInteger : Decimal := ⟨(2 * tenPow 50000 : Nat), -100000⟩

theorem long_operands_in_range :
    ∀ d ∈ [longInteger, longInteger, one, spelledOne 100000], d.inRange = some true := by
  have integer : longInteger.inRange = some true :=
    in_range_of_short (by decide +kernel) (by decide +kernel)
  have unit : (spelledOne 100000).inRange = some true :=
    in_range_of_short (by decide +kernel) (by decide +kernel)
  have one : one.inRange = some true := by decide +kernel
  simp only [List.forall_mem_cons, List.not_mem_nil, false_implies, implies_true, and_true]
  exact ⟨integer, integer, one, unit⟩

end Decimal

open Decimal (longInteger spelledOne)

theorem long_told_apart {operator : BinaryOp} {d d' : Decimal}
    (result : onNumbers operator longInteger .one ⟨0, 0⟩ = checkedNumber operator ⟨0, 0⟩ d)
    (spelled : onNumbers operator longInteger (spelledOne 100000) ⟨0, 0⟩ =
      checkedNumber operator ⟨0, 0⟩ d')
    (inside : d.inRange = some true) (outside : d'.inRange = some false) :
    ToldApart operator longInteger longInteger .one (spelledOne 100000) where
  inRange := Decimal.long_operands_in_range
  sameLeft := (Decimal.same_number_iff _ _).mpr rfl
  sameRight := Decimal.one_same_spelled _
  outcomes := by
    rw [result, spelled]
    exact range_told_apart inside outside

theorem sum_told_apart : ToldApart .add longInteger longInteger .one (spelledOne 100000) :=
  long_told_apart (add_eq _ _ _) (add_eq _ _ _)
    (Decimal.in_range_of_short (by decide +kernel) (by decide +kernel))
    (Decimal.out_of_range_of_long (by decide +kernel) (by decide +kernel))

theorem difference_told_apart :
    ToldApart .subtract longInteger longInteger .one (spelledOne 100000) :=
  long_told_apart (subtract_eq _ _ _) (subtract_eq _ _ _)
    (Decimal.in_range_of_short (by decide +kernel) (by decide +kernel))
    (Decimal.out_of_range_of_long (by decide +kernel) (by decide +kernel))

/-- Forms show in sums, differences, products and quotients that leave the range, in quotients whose
integer part is long, and in those by a one that is not recognised. -/
theorem forms_show :
    ToldApart .add longInteger longInteger .one (spelledOne 100000) ∧
      ToldApart .subtract longInteger longInteger .one (spelledOne 100000) ∧
      ToldApart .multiply ⟨2, 0⟩ ⟨20, 1⟩ ⟨1, 100000⟩ ⟨1, 100000⟩ ∧
      ToldApart .divide ⟨1, 99998⟩ ⟨100, 100000⟩ ⟨1, -1⟩ ⟨1, -1⟩ ∧
      ToldApart .divide ⟨1, -200⟩ ⟨tenPow 200, 0⟩ ⟨3, 0⟩ ⟨3, 0⟩ ∧
      ToldApart .divide ⟨tenPow 150 + 1, 0⟩ ⟨tenPow 150 + 1, 0⟩ .one (spelledOne 39) :=
  ⟨sum_told_apart, difference_told_apart, told_apart_of_check (by decide +kernel),
    told_apart_of_check (by decide +kernel), told_apart_of_check (by decide +kernel),
    told_apart_of_check (by decide +kernel)⟩

end Formula
