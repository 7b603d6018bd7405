import Formula.Decimal.Text
import Formula.Proofs.Rational
import Mathlib.Data.Nat.Prime.Basic

set_option autoImplicit false

namespace Formula

namespace Digits

theorem to_digits_mul_pow {n : Nat} (positive : n ≠ 0) (k : Nat) :
    Nat.toDigits 10 (n * 10 ^ k) = Nat.toDigits 10 n ++ List.replicate k '0' := by
  induction k with
  | zero => simp
  | succ k ih =>
    have more : 0 < n * 10 ^ k := Nat.mul_pos (Nat.pos_of_ne_zero positive) (Nat.pow_pos (by omega))
    rw [Nat.pow_succ, ← Nat.mul_assoc, Nat.toDigits_of_base_le (by omega) (by omega),
      Nat.mul_div_cancel _ (by omega), Nat.mul_mod_left, ih, List.append_assoc,
      List.replicate_succ']
    rfl

theorem to_digits_split {n k : Nat} (long : 10 ^ k ≤ n) :
    Nat.toDigits 10 n = Nat.toDigits 10 (n / 10 ^ k) ++ lastDigits k n := by
  induction k generalizing n with
  | zero => simp [lastDigits]
  | succ k ih =>
    rw [Nat.pow_succ] at long
    have positive := Nat.pow_pos (a := 10) (n := k) (by omega)
    rw [Nat.toDigits_of_base_le (by omega) (by omega), ih (by omega), Nat.div_div_eq_div_mul,
      ← Nat.pow_succ', lastDigits, List.append_assoc]

end Digits

namespace Exact

def places (q : ℚ) : Nat := ((List.range q.den).find? fun k => 10 ^ k % q.den == 0).getD 0

def magnitudeText (q : ℚ) : List Char :=
  let behind := places q
  let unscaled := q.num.natAbs * 10 ^ behind / q.den
  if behind = 0 then Nat.toDigits 10 unscaled
  else Nat.toDigits 10 (unscaled / 10 ^ behind) ++ '.' :: Digits.lastDigits behind unscaled

def text (q : ℚ) : String :=
  String.ofList (if q < 0 then '-' :: magnitudeText q else magnitudeText q)

end Exact

namespace Decimal

theorem numerator_eq (d : Decimal) {k : Nat} (scales : d.scale ≤ k) :
    d.toRat.num * 10 ^ k = d.unscaledAt k * d.toRat.den := by
  have written := unscaled_at_value d scales
  have den : (d.toRat.den : ℚ) ≠ 0 := by exact_mod_cast d.toRat.den_nz
  rw [zpow_natCast] at written
  conv_rhs at written => rw [← Rat.num_div_den d.toRat]
  rw [div_mul_eq_mul_div, eq_div_iff den] at written
  exact_mod_cast written.symm

theorem numerator_magnitude (d : Decimal) {k : Nat} (scales : d.scale ≤ k) :
    d.toRat.num.natAbs * 10 ^ k = (d.unscaledAt k).natAbs * d.toRat.den := by
  have cross := congrArg Int.natAbs (numerator_eq d scales)
  rwa [Int.natAbs_mul, Int.natAbs_mul, Int.natAbs_pow] at cross

theorem den_dvd_iff {d : Decimal} (last : ¬ (10 : Int) ∣ d.unscaled) (k : Nat) :
    d.toRat.den ∣ 10 ^ k ↔ d.scale ≤ k := by
  constructor
  · rintro ⟨c, factor⟩
    by_contra more
    have value : toRat ⟨d.toRat.num * c, k⟩ = d.toRat := by
      have power : (10 : ℚ) ^ (k : Int) = d.toRat.den * c := by
        rw [zpow_natCast]
        exact_mod_cast factor
      have nonzero : (c : ℚ) ≠ 0 := by
        intro none
        rw [none, mul_zero] at power
        exact (scale_pos k).ne' power
      rw [to_rat_mk, power]
      push_cast
      rw [mul_div_mul_right _ _ nonzero, Rat.num_div_den]
    have same := eq_of_last_digit last (by change (k : Int) ≤ d.scale; omega) value
    exact more (le_of_eq (congrArg scale same).symm)
  · intro scales
    have divides : (d.toRat.den : Int) ∣ d.toRat.num * 10 ^ k :=
      numerator_eq d scales ▸ Dvd.intro_left _ rfl
    rw [← Int.natAbs_dvd_natAbs, Int.natAbs_mul, Int.natAbs_pow] at divides
    exact d.toRat.reduced.symm.dvd_of_dvd_mul_left divides

theorem lt_den_of_prime {p u k num den : Nat} (prime : p.Prime) (ten : p ∣ 10) (last : ¬ p ∣ u)
    (some : 0 < den) (cross : num * 10 ^ k = u * den) : k < den := by
  have power : p ^ k ∣ u * den := cross ▸ Dvd.dvd.mul_left (pow_dvd_pow_of_dvd ten k) num
  have coprime : Nat.Coprime (p ^ k) u :=
    Nat.Coprime.pow_left k ((Nat.Prime.coprime_iff_not_dvd prime).mpr last)
  calc
    k < p ^ k := Nat.lt_pow_self prime.one_lt
    _ ≤ den := Nat.le_of_dvd some (coprime.dvd_of_dvd_mul_left power)

theorem scale_lt_den {d : Decimal} (last : ¬ (10 : Int) ∣ d.unscaled) :
    d.scale.toNat < d.toRat.den := by
  by_cases whole : d.scale ≤ 0
  · rw [Int.toNat_of_nonpos whole]
    exact d.toRat.den_pos
  · have scale : d.scale = d.scale.toNat := by omega
    have cross := numerator_magnitude d (le_of_eq scale)
    rw [← scale, unscaled_at_scale] at cross
    -- One of the two primes of ten is left in the denominator, once for each place.
    by_cases even : 2 ∣ d.unscaled.natAbs
    · have other : ¬ 5 ∣ d.unscaled.natAbs := by omega
      exact lt_den_of_prime Nat.prime_five (by omega) other d.toRat.den_pos cross
    · exact lt_den_of_prime Nat.prime_two (by omega) even d.toRat.den_pos cross

theorem places_eq {d : Decimal} (last : ¬ (10 : Int) ∣ d.unscaled) :
    Exact.places d.toRat = d.scale.toNat := by
  have found : ((List.range d.toRat.den).find? fun k => 10 ^ k % d.toRat.den == 0) =
      some d.scale.toNat := by
    rw [List.find?_range_eq_some]
    refine ⟨?_, List.mem_range.mpr (scale_lt_den last), ?_⟩
    · rw [beq_iff_eq, ← Nat.dvd_iff_mod_eq_zero, den_dvd_iff last]
      omega
    · intro k fewer
      rw [Bool.not_eq_true', beq_eq_false_iff_ne, ne_eq, ← Nat.dvd_iff_mod_eq_zero,
        den_dvd_iff last]
      omega
  rw [Exact.places, found, Option.getD_some]

theorem magnitude_text_eq {d : Decimal} (last : ¬ (10 : Int) ∣ d.unscaled) :
    magnitudeText d.unscaled.natAbs d.scale = Exact.magnitudeText d.toRat := by
  have some : d.unscaled.natAbs ≠ 0 := by omega
  have unscaled : d.toRat.num.natAbs * 10 ^ d.scale.toNat / d.toRat.den =
      (d.unscaledAt d.scale.toNat).natAbs :=
    Nat.div_eq_of_eq_mul_left d.toRat.den_pos (numerator_magnitude d (Int.self_le_toNat d.scale))
  rw [Exact.magnitudeText, magnitudeText, places_eq last, Digits.of_nat_eq]
  dsimp only
  rw [unscaled]
  by_cases whole : d.scale ≤ 0
  · rw [if_pos whole, Int.toNat_of_nonpos whole, if_pos rfl, unscaledAt, Int.natAbs_mul,
      ten_pow_eq, Int.natAbs_natCast, ← Digits.to_digits_mul_pow some, Nat.cast_zero, zero_sub]
  · have scale : (d.scale.toNat : Int) = d.scale := by omega
    have behind : d.scale.toNat ≠ 0 := by omega
    rw [if_neg whole, if_neg behind, scale, unscaled_at_scale]
    by_cases short : (Nat.toDigits 10 d.unscaled.natAbs).length ≤ d.scale.toNat
    · have below := (Nat.length_toDigits_le_iff (by omega) (by omega)).mp short
      rw [if_pos short, Nat.div_eq_of_lt below, Nat.toDigits_zero,
        Digits.last_digits_eq (by omega) below]
      rfl
    · have long : 10 ^ d.scale.toNat ≤ d.unscaled.natAbs :=
        not_lt.mp (mt (Nat.length_toDigits_le_iff (by omega) (by omega)).mpr short)
      have split := Digits.to_digits_split long
      have lengths := congrArg List.length split
      rw [List.length_append, Digits.last_digits_length] at lengths
      rw [if_neg short, lengths, Nat.add_sub_cancel, split, List.take_left, List.drop_left]

theorem text_eq (d : Decimal) : d.text = Exact.text d.toRat := by
  rw [text, textChars, Exact.text, ← normalized_value d]
  congr 1
  rcases normalized_canonical d with nothing | last
  · rw [nothing, zero_value]
    rfl
  · have some : d.normalized.unscaled ≠ 0 := by omega
    rw [if_neg some, magnitude_text_eq last]
    by_cases negative : d.normalized.unscaled < 0
    · rw [if_pos negative, if_pos ((to_rat_neg _).mpr negative)]
    · rw [if_neg negative, if_neg (mt (to_rat_neg _).mp negative)]

end Decimal

end Formula
