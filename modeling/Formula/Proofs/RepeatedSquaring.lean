import Formula.Proofs.PowerWords

set_option autoImplicit false

namespace Formula.Decimal

structure Squaring where
  result : Decimal
  square : Decimal
  exponent : Nat

namespace Squaring

def round (s : Squaring) : Squaring :=
  ⟨if s.exponent % 2 = 1 then s.result * s.square else s.result,
    if s.exponent = 1 then s.square else s.square * s.square, s.exponent / 2⟩

theorem squaring_round (s : Squaring) :
    squaring s.round.result s.round.square s.round.exponent =
      squaring s.result s.square s.exponent := by
  by_cases done : s.exponent = 0
  · have same : s.round.result = s.result := if_neg (by omega)
    have still : s.round.exponent = 0 := by rw [round, done]
    rw [still, done, squaring, if_pos rfl, squaring, if_pos rfl, same]
  · conv_rhs => rw [squaring, if_neg done]
    rfl

theorem ends (s : Squaring) {k : Nat} (short : s.exponent < 2 ^ k) :
    (round^[k] s).exponent = 0 ∧
      (round^[k] s).result = squaring s.result s.square s.exponent := by
  induction k generalizing s with
  | zero =>
    have done : s.exponent = 0 := by rwa [pow_zero, Nat.lt_one_iff] at short
    rw [Function.iterate_zero, id, done, squaring, if_pos rfl]
    exact ⟨rfl, rfl⟩
  | succ k ih =>
    have half : s.round.exponent < 2 ^ k := by
      rw [pow_succ] at short
      exact Nat.div_lt_of_lt_mul (by omega)
    rw [Function.iterate_succ_apply, ← squaring_round]
    exact ih s.round half

end Squaring

theorem reached_scale {b : Decimal} (last : ¬ (10 : Int) ∣ b.unscaled) {m : Nat}
    (reach : powerInReach b m = some true) :
    fitsWord 63 (exactPower b m).scale = true ∧ |(exactPower b m).scale| ≤ maxScale := by
  obtain ⟨-, near, -⟩ := reach_iff.mp reach
  rw [exact_power_form last]
  exact ⟨fits_of_lt (lt_of_le_of_lt near (by decide)), near⟩

/-- A power of a number without trailing zeros is the power of its unscaled integer at the multiple
of its scale, which is the form without trailing zeros, and the scale that was checked beforehand.
The loop is over after at most as many rounds as the exponent has binary digits, and no scale
overflows on the way if the last one does not. -/
theorem repeated_squaring_exact {b : Decimal} (last : ¬ (10 : Int) ∣ b.unscaled) (m : Nat) :
    exactPower b m = ⟨b.unscaled ^ m, b.scale * m⟩ ∧
    ¬ (10 : Int) ∣ b.unscaled ^ m ∧
    (exactPower b m).normalized = exactPower b m ∧
    (∀ k, m < 2 ^ k → (Squaring.round^[k] ⟨one, b, m⟩).exponent = 0 ∧
      (Squaring.round^[k] ⟨one, b, m⟩).result = exactPower b m) ∧
    (fitsWord 63 (b.scale * m) = true → Words.squaring one b m = .ok (exactPower b m)) ∧
    (powerInReach b m = some true → fitsWord 63 (exactPower b m).scale = true ∧
      |(exactPower b m).scale| ≤ maxScale) := by
  have form := exact_power_form last m
  have digits := power_last last m
  refine ⟨form, digits, normalized_of_last (by rwa [form]), ?_, Words.exact_power_words last,
    reached_scale last⟩
  intro k short
  exact Squaring.ends ⟨one, b, m⟩ short

theorem repeated_squaring_exact_of_fifth :
    ¬ (10 : Int) ∣ 2 ∧ exactPower ⟨2, 1⟩ 5 = ⟨32, 5⟩ ∧
      (exactPower ⟨2, 1⟩ 5).normalized = exactPower ⟨2, 1⟩ 5 ∧
      (Squaring.round^[3] ⟨one, ⟨2, 1⟩, 5⟩).exponent = 0 ∧
      Words.squaring one ⟨2, 1⟩ 5 = .ok (exactPower ⟨2, 1⟩ 5) := by
  have last : ¬ (10 : Int) ∣ 2 := by decide
  obtain ⟨form, -, same, ends, words, -⟩ := repeated_squaring_exact (b := ⟨2, 1⟩) last 5
  exact ⟨last, form, same, (ends 3 (by decide)).1, words (by decide)⟩

end Formula.Decimal
