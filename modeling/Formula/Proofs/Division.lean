import Formula.Proofs.EqualNumbers
import Formula.Proofs.FittingPowers

set_option autoImplicit false

namespace Formula

namespace Exact

-- A result next to the exact one: a hundred digits are right, and nothing else is given for what
-- can be written with as many.
structure CorrectlyRounded (exact result : ℚ) : Prop where
  near : |result - exact| ≤ 5 / 10 ^ 100 * |exact|
  few : HasDigits 100 exact → result = exact

structure Remains (dividend divisor rest : ℚ) : Prop where
  multiple : ∃ q : Int, dividend = q * divisor + rest
  below : |rest| < |divisor|
  sign : rest = 0 ∨ SignType.sign rest = SignType.sign dividend

theorem correctly_rounded_self (q : ℚ) : CorrectlyRounded q q := by
  refine ⟨?_, fun _ => rfl⟩
  rw [sub_self, abs_zero]
  positivity

end Exact

namespace Decimal

theorem div_rounded (a : Decimal) {b : Decimal} (nonzero : b.toRat ≠ 0) :
    Exact.CorrectlyRounded (a.toRat / b.toRat) (a / b).toRat := by
  rw [div_value a nonzero]
  refine ⟨?_, fun few => kept_of_has_digits few⟩
  calc
    _ ≤ |a.toRat / b.toRat| / 2 / 10 ^ 99 := kept_error a b _
    _ = 5 / 10 ^ 100 * |a.toRat / b.toRat| := by ring

end Decimal

theorem divided_by_zero (l : Decimal) {r : Decimal} (zero : r.toRat = 0) (span : Span) :
    onNumbers .divide l r span = .error (.located .divisionByZero span) := by
  rw [divide_eq, if_pos ((Decimal.is_zero_iff r).mpr zero)]

theorem divided {l r : Decimal} (left : l.Bounded) (right : r.Bounded) (nonzero : r.toRat ≠ 0)
    (span : Span) :
    (∃ q, onNumbers .divide l r span = .ok (.number q) ∧
      Exact.CorrectlyRounded (l.toRat / r.toRat) q.toRat) ∨
    onNumbers .divide l r span = .error (.located (.numberOutOfRange "/") span) := by
  rw [divide_eq, if_neg (mt (Decimal.is_zero_iff r).mp nonzero)]
  rcases checked_outcomes (Decimal.div_scale_inner left right).2 .divide span with ok | refused
  · exact .inl ⟨_, ok, Decimal.div_rounded l nonzero⟩
  · exact .inr refused

namespace Decimal

theorem negative_power_rounded {base exponent result : Decimal} {n : Nat} (some : 0 < n)
    (value : exponent.toRat = -n) (nonzero : base.toRat ≠ 0)
    (ok : power base exponent = .ok result) :
    Exact.CorrectlyRounded (1 / base.toRat ^ n) result.toRat := by
  have integer : exponent.toRat = (-n : Int) := by
    rw [value]
    push_cast
    rfl
  have computed := integer_power_cases base exponent
  rw [← power_of_integer integer fun _ => nonzero, ok] at computed
  generalize outcome : Except.ok result = output at computed
  cases computed with
  | one none =>
    rw [is_zero_iff, value, neg_eq_zero, Nat.cast_eq_zero] at none
    omega
  | zero more nothing => exact absurd ((is_zero_iff base).mp nothing) nonzero
  | unit unit =>
    cases outcome
    rw [unit_power integer unit, zpow_neg, zpow_natCast, ← one_div]
    exact Exact.correctly_rounded_self _
  | @reached m plain word reach =>
    have written := to_word_value word
    rw [integer, Int.cast_inj] at written
    omega
  | @reciprocal m plain negative word reach =>
    have written := to_word_value word
    have same : m = -n := by rwa [integer, Int.cast_inj, eq_comm] at written
    have powered : (exactPower base.normalized n).toRat = base.toRat ^ n := by
      rw [exact_power_value, normalized_value]
    have rounded := div_rounded one (powered ▸ pow_ne_zero n nonzero)
    rw [(ensured outcome.symm).1, same, Int.natAbs_neg, Int.natAbs_natCast]
    rwa [one_value, powered] at rounded
  | refused | overflow => cases outcome

end Decimal

/-- Division fails for a divisor that is zero, and for no other; any other quotient of numbers in
range is correctly rounded, or reported to be out of range. One over a power is correctly rounded if
it is found. -/
theorem quotients_rounded {l r : Decimal} (left : l.inRange = some true)
    (right : r.inRange = some true) (span : Span) {base exponent : Decimal} {n : Nat} :
    (onNumbers .divide l r span = .error (.located .divisionByZero span) ↔ r.toRat = 0) ∧
    (r.toRat ≠ 0 →
      (∃ q, onNumbers .divide l r span = .ok (.number q) ∧
        Exact.CorrectlyRounded (l.toRat / r.toRat) q.toRat) ∨
      onNumbers .divide l r span = .error (.located (.numberOutOfRange "/") span)) ∧
    (base.toRat ≠ 0 → 0 < n → exponent.toRat = -n → ∀ q, base.power exponent = .ok q →
      Exact.CorrectlyRounded (1 / base.toRat ^ n) q.toRat) := by
  rw [Decimal.in_range_iff_bounded] at left right
  refine ⟨⟨?_, fun zero => divided_by_zero l zero span⟩,
    fun other => divided left right other span, ?_⟩
  · intro failed
    by_contra other
    rcases divided left right other span with ⟨q, ok, -⟩ | refused
    · rw [ok] at failed
      cases failed
    · rw [refused] at failed
      cases failed
  · intro nonzero some value q ok
    exact Decimal.negative_power_rounded some value nonzero ok

theorem quotients_rounded_of_third :
    (∃ q, onNumbers .divide ⟨1, 0⟩ ⟨3, 0⟩ ⟨0, 5⟩ = .ok (.number q) ∧
      Exact.CorrectlyRounded (Decimal.toRat ⟨1, 0⟩ / Decimal.toRat ⟨3, 0⟩) q.toRat) ∧
    ∃ q, Decimal.power ⟨2, 0⟩ ⟨-200, 0⟩ = .ok q ∧
      Exact.CorrectlyRounded (1 / Decimal.toRat ⟨2, 0⟩ ^ 200) q.toRat := by
  have nonzero : Decimal.toRat ⟨2, 0⟩ ≠ 0 := by norm_num [Decimal.toRat]
  have value : Decimal.toRat ⟨-200, 0⟩ = -((200 : Nat) : ℚ) := by norm_num [Decimal.toRat]
  have left : (⟨1, 0⟩ : Decimal).inRange = some true := by decide +kernel
  have right : (⟨3, 0⟩ : Decimal).inRange = some true := by decide +kernel
  obtain ⟨-, quotient, power⟩ := quotients_rounded left right ⟨0, 5⟩
  constructor
  · apply (quotient (by norm_num [Decimal.toRat])).resolve_right
    decide +kernel
  · have range : (Decimal.one / Decimal.exactPower ⟨2, 0⟩ 200).inRange = some true := by
      decide +kernel
    have ok := Decimal.long_reciprocal_eq
    rw [Decimal.ensureInRange, Decimal.by_range_in range] at ok
    exact ⟨_, ok, power nonzero (by omega) value _ ok⟩

namespace Decimal

theorem sign_value (unscaled scale : Int) :
    SignType.sign (toRat ⟨unscaled, scale⟩) = SignType.sign unscaled := by
  rw [sign_apply, sign_apply]
  simp only [to_rat_pos, to_rat_neg]

theorem sign_of_tmod {x y : Int} (rest : ¬ y ∣ x) :
    SignType.sign (x.tmod y) = SignType.sign x := by
  have signs := Int.sign_tmod x y
  rw [if_neg rest, Int.sign_eq_sign, Int.sign_eq_sign] at signs
  generalize SignType.sign (x.tmod y) = s at signs ⊢
  generalize SignType.sign x = t at signs ⊢
  revert s t
  decide

theorem rem_remains (a : Decimal) {b : Decimal} (nonzero : b.toRat ≠ 0) :
    Exact.Remains a.toRat b.toRat (a % b).toRat := by
  have left := of_unscaled_at a (left_le_common a b)
  have right := of_unscaled_at b (right_le_common a b)
  change Exact.Remains _ _
    (toRat ⟨(a.unscaledAt (a.commonScale b)).tmod (b.unscaledAt (a.commonScale b)), _⟩)
  generalize a.unscaledAt (a.commonScale b) = x at left ⊢
  generalize b.unscaledAt (a.commonScale b) = y at right ⊢
  generalize a.commonScale b = scale at left right ⊢
  rw [← to_rat_mk] at left right
  rw [← right, ne_eq, to_rat_eq_zero] at nonzero
  rw [← left, ← right]
  refine ⟨⟨x.tdiv y, ?_⟩, ?_, ?_⟩
  · rw [to_rat_mk, to_rat_mk, to_rat_mk, ← mul_div_assoc, ← add_div, ← Int.cast_mul,
      ← Int.cast_add, Int.tdiv_mul_add_tmod]
  · rw [magnitude_eq, magnitude_eq, Int.natAbs_tmod]
    have below := Nat.mod_lt x.natAbs (Int.natAbs_pos.mpr nonzero)
    exact div_lt_div_of_pos_right (Nat.cast_lt.mpr below) (scale_pos scale)
  · by_cases divides : y ∣ x
    · left
      rw [Int.tmod_eq_zero_of_dvd divides, to_rat_eq_zero]
    · right
      rw [sign_value, sign_value, sign_of_tmod divides]

end Decimal

/-- A remainder fails for a divisor that is zero, and for no other; any other is exact, and in
range. -/
theorem remainders_exact {l r : Decimal} (left : l.inRange = some true)
    (right : r.inRange = some true) (span : Span) :
    (onNumbers .remainder l r span = .error (.located .divisionByZero span) ↔ r.toRat = 0) ∧
    (r.toRat ≠ 0 → ∃ m, onNumbers .remainder l r span = .ok (.number m) ∧ m.inRange = some true ∧
      Exact.Remains l.toRat r.toRat m.toRat) := by
  have succeeds (nonzero : r.toRat ≠ 0) : onNumbers .remainder l r span = .ok (.number (l % r)) ∧
      (l % r).inRange = some true := by
    have range := Decimal.rem_in_range left right (mt (Decimal.to_rat_eq_zero r).mpr nonzero)
    rw [remainder_eq, if_neg (mt (Decimal.is_zero_iff r).mp nonzero), checked_in_range range]
    exact ⟨rfl, range⟩
  constructor
  · constructor
    · intro failed
      by_contra nonzero
      rw [(succeeds nonzero).1] at failed
      cases failed
    · intro zero
      rw [remainder_eq, if_pos ((Decimal.is_zero_iff r).mpr zero)]
  · intro nonzero
    obtain ⟨ok, range⟩ := succeeds nonzero
    exact ⟨l % r, ok, range, Decimal.rem_remains l nonzero⟩

theorem remainders_exact_of_negative :
    Decimal.toRat ⟨2, 0⟩ ≠ 0 ∧
      ∃ m, onNumbers .remainder ⟨-75, 1⟩ ⟨2, 0⟩ ⟨0, 8⟩ = .ok (.number m) ∧ m.inRange = some true ∧
        Exact.Remains (Decimal.toRat ⟨-75, 1⟩) (Decimal.toRat ⟨2, 0⟩) m.toRat := by
  have nonzero : Decimal.toRat ⟨2, 0⟩ ≠ 0 := by norm_num [Decimal.toRat]
  have exactly := @remainders_exact ⟨-75, 1⟩ ⟨2, 0⟩ (by decide +kernel) (by decide +kernel) ⟨0, 8⟩
  exact ⟨nonzero, exactly.2 nonzero⟩

end Formula
