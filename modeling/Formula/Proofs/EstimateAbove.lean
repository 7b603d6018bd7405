import Formula.Proofs.PowerRange

set_option autoImplicit false

namespace Formula

open Real

namespace Decimal

open Binary

def reckoned (n : Nat) : Nat := if (Binary.ofNat n).overflows then 2 ^ bitCount n else n

theorem of_nat_stays {n : Nat} (some : 0 < n) : (Binary.ofNat n).Stays 1 n := by
  have one : (1 : ℝ) ≤ n := by exact_mod_cast some
  apply nearest_stays (by linarith) (by norm_num)
  · rw [Nat.cast_zero, Nat.cast_one]
    linarith
  · rw [Nat.cast_one]
    linarith

theorem log_two_above : 301029995663981 / 10 ^ 15 ≤ logb 10 2 := by
  obtain ⟨height, full⟩ := Log.develop_start_le one_pos one_le_two logPlaces
  have below := Log.whole_le_height full
  have height : (Log.develop logPlaces (Log.start 2 1)).height ≤
    2 ^ 96 * (logb 10 ((2 : Nat) / (1 : Nat)) + 3 * Log.cutGain) := height
  have gain : 3 * Log.cutGain ≤ 1 / 10 ^ 50 := by
    rw [Log.cutGain, logUnit, ten_pow_eq]
    norm_num
  rw [log_two_developed] at below
  generalize Log.develop logPlaces (Log.start 2 1) = l at height below
  norm_num at height below gain ⊢
  linarith

theorem log_of_two_stays : log10OfTwo.Stays 2 (logb 10 2) := by
  have low := log_two_above
  apply nearest_stays (by linarith) (by norm_num)
  · rw [ten_pow_eq]
    push_cast
    rw [div_le_iff₀ (by positivity)]
    linarith
  · rw [ten_pow_eq]
    norm_num

theorem log_rounded_le {n : Nat} (more : 2 ≤ n) :
    logb 10 (Binary.ofNat n).toRat ≤ logb 10 n * (1 + 8 / 2 ^ 48) := by
  have raised := of_nat_stays (show 0 < n by omega)
  have reached := of_nat_reaches (show 0 < n by omega)
  have large := log_ge more
  have positive : (0 : ℝ) < n := by exact_mod_cast (show 0 < n by omega)
  rw [Stays, Nat.cast_one] at raised
  rw [Reaches, Nat.cast_one] at reached
  generalize ((Binary.ofNat n).toRat : ℝ) = x at raised reached ⊢
  have log := log_raised positive (show 0 < x by linarith) (by norm_num) raised
  linarith

theorem log_of_rounded_stays {n : Nat} (more : 2 ≤ n) :
    (Binary.ofNat n).log10.Stays 13 (logb 10 n) := by
  have large := log_ge more
  have low := log_rounded more
  have high := log_rounded_le more
  have log := log10_stays (b := Binary.ofNat n) (by linarith)
  generalize logb 10 ((Binary.ofNat n).toRat : ℝ) = y at low high log
  rw [Stays] at log ⊢
  push_cast at log ⊢
  linarith

theorem log_of_bits_stays {n : Nat} (some : n ≠ 0) :
    ((Binary.ofNat (bitCount n)).mul log10OfTwo).Stays 13 (logb 10 (2 ^ bitCount n : Nat)) := by
  have two := log_two_ge
  have bits : 0 < bitCount n := by
    rw [bitCount, if_neg some]
    omega
  have one : (1 : ℝ) ≤ bitCount n := by exact_mod_cast bits
  have left := of_nat_reaches bits
  have right := log_of_two_reaches
  rw [Reaches] at left right
  push_cast at left right
  have product := mul_stays (of_nat_stays bits) log_of_two_stays (by linarith) (by linarith)
    (by norm_num) (by norm_num) (by nlinarith)
  rw [Nat.cast_pow, Nat.cast_ofNat, logb_pow]
  refine le_trans product (mul_le_mul_of_nonneg_left ?_ (by positivity))
  norm_num

theorem log10_magnitude_stays {n : Nat} (more : 2 ≤ n) :
    (log10Magnitude n).Stays 13 (logb 10 (reckoned n)) := by
  rw [log10Magnitude, reckoned]
  by_cases past : (Binary.ofNat n).overflows = true
  · rw [if_pos past, if_pos past]
    exact log_of_bits_stays (by omega)
  · rw [if_neg past, if_neg past]
    exact log_of_rounded_stays more

theorem estimate_le {n m : Nat} (more : 2 ≤ n) (some : 0 < m) :
    (estimatedDigits n m).toRat ≤
      (logb 10 (reckoned n) * m * (1 + 16 / 2 ^ 48) + (1 + 1 / 2 ^ 48)) * (1 + 1 / 2 ^ 53) := by
  have large := log_ge more
  have times : (1 : ℝ) ≤ m := by exact_mod_cast some
  have reached := log10_magnitude_reaches more
  have reached' := of_nat_reaches some
  have stays := log10_magnitude_stays more
  rw [Reaches] at reached reached'
  push_cast at reached reached'
  have positive : 0 ≤ logb 10 (reckoned n) := by
    rw [Stays] at stays
    push_cast at stays
    linarith
  have product := mul_stays stays (of_nat_stays some) positive (by linarith) (by norm_num)
    (by norm_num) (by nlinarith)
  have product_reached := mul_reaches (log10_magnitude_reaches more) (of_nat_reaches some)
    (by linarith) (by push_cast; linarith) (by linarith) (by push_cast; nlinarith)
  have one := of_nat_stays Nat.one_pos
  have one_reached := of_nat_reaches Nat.one_pos
  have enough : 3 / 10 ≤ logb 10 n * m := by nlinarith
  rw [estimatedDigits]
  generalize (log10Magnitude n).mul (Binary.ofNat m) = p at product product_reached ⊢
  generalize Binary.ofNat 1 = o at one one_reached ⊢
  rw [Stays] at product one
  rw [Reaches] at product_reached one_reached
  push_cast at product one product_reached one_reached
  obtain ⟨-, rounded⟩ := next_real (add_next (a := p) (b := o)) (by push_cast; linarith)
  push_cast at rounded
  linarith

theorem nearest_of_zero (den : Nat) : (nearest 0 den).toRat = 0 := by
  have none (d : Nat) : nearestInteger 0 d = 0 := by
    rw [nearestInteger, Nat.zero_div, Nat.zero_mod, if_pos]
    cases d <;> simp
  rw [nearest, scaled, zero_mul]
  dsimp only
  rw [none, Binary.toRat, Nat.cast_zero, zero_mul]

theorem log_of_one : (log10Magnitude 1).toRat = 0 := by
  have developed : (Binary.ofNat 1).developedLog10.toRat = 0 := by
    have nothing : (Binary.ofNat 1).developedLog10.significand = 0 := by decide +kernel
    rw [Binary.toRat, nothing, Nat.cast_zero, zero_mul]
  have small : (Binary.ofNat 1).overflows = false := by decide +kernel
  rw [log10Magnitude, small, if_neg Bool.false_ne_true, log10]
  generalize (Binary.ofNat 1).developedLog10 = l at developed ⊢
  by_cases agree : (ofFloat (Binary.ofNat 1).toFloat.log10).agrees l = true
  · have near := (agrees_near agree).2
    rw [developed, zero_mul] at near
    rw [if_pos agree]
    exact le_antisymm near (to_rat_nonneg _)
  · rw [if_neg agree]
    exact developed

theorem ratio_of_zero {b : Binary} (zero : b.toRat = 0) : b.ratio.1 = 0 := by
  have value := ratio_value b
  rw [zero, div_eq_zero_iff] at value
  rcases value with none | none
  · exact_mod_cast none
  · exact absurd none (Nat.cast_ne_zero.mpr (ratio_den_pos b).ne')

theorem estimate_of_one (m : Nat) : (estimatedDigits 1 m).toRat ≤ 2 := by
  have product : ((log10Magnitude 1).mul (Binary.ofNat m)).toRat = 0 := by
    rw [Binary.mul, ratio_of_zero log_of_one, zero_mul]
    exact nearest_of_zero _
  have one : (Binary.ofNat 1).toRat = 1 := by
    have rounded : Binary.ofNat 1 = ⟨4503599627370496, -52⟩ := by decide +kernel
    rw [rounded, Binary.toRat]
    norm_num
  have rounded := (add_next (a := (log10Magnitude 1).mul (Binary.ofNat m)) (b := Binary.ofNat 1)
    (by rw [product, one]; norm_num)).high
  rw [product, one] at rounded
  rw [estimatedDigits]
  linarith

-- Below it no power is estimated too long. It has one digit less than is allowed, and the first
-- seven of them are nines.
def safePlaces : Nat := 249992

def safeBound : Nat := 9999999 * 10 ^ safePlaces

theorem log_ten_le : Real.log 10 ≤ 4 := by
  have sixteen : Real.log 10 ≤ Real.log (2 ^ 4) := Real.log_le_log (by norm_num) (by norm_num)
  have two := log_le_sub_one_of_pos (show (0 : ℝ) < 2 by norm_num)
  rw [Real.log_pow] at sixteen
  push_cast at sixteen
  linarith

theorem log_of_nines : logb 10 9999999 ≤ 7 - 1 / 10 ^ 7 / 4 := by
  have ten := log_ten_ge
  have below : Real.log (9999999 / 10 ^ 7) ≤ -(1 / 10 ^ 7) := by
    have := log_le_sub_one_of_pos (show (0 : ℝ) < 9999999 / 10 ^ 7 by norm_num)
    norm_num at this ⊢
    linarith
  have quotient : logb 10 (9999999 / 10 ^ 7) ≤ -(1 / 10 ^ 7 / 4) := by
    rw [logb, div_le_iff₀ (by linarith)]
    have := log_ten_le
    linarith
  rw [logb_div (by norm_num) (by norm_num), logb_pow, logb_self_eq_one (by norm_num)] at quotient
  push_cast at quotient
  linarith

theorem log_safe : logb 10 (safeBound : Nat) ≤ 249999 - 1 / 10 ^ 7 / 4 := by
  have nines := log_of_nines
  have places : ((safePlaces : Nat) : ℝ) = 249992 := by norm_num [safePlaces]
  rw [safeBound, Nat.cast_mul, Nat.cast_pow, Nat.cast_ofNat, Nat.cast_ofNat,
    logb_mul (by norm_num) (by positivity), logb_pow, logb_self_eq_one (by norm_num), mul_one,
    places]
  linarith

theorem short_power_reached {n m : Nat} (positive : n ≠ 0) (some : 0 < m)
    (short : reckoned n ^ m < safeBound) :
    (Binary.ofNat maxDigits).less (estimatedDigits n m) = false := by
  rw [← Bool.not_eq_true, Binary.less_iff, max_digits_value, not_lt, ← Rat.cast_le (K := ℝ)]
  push_cast
  by_cases more : 2 ≤ n
  · have estimate := estimate_le more some
    have larger : 0 < reckoned n := by
      rw [reckoned]
      split
      · exact Nat.two_pow_pos _
      · omega
    have cast : ((reckoned n : Nat) : ℝ) ^ m ≤ (safeBound : Nat) := by
      rw [← Nat.cast_pow]
      exact Nat.cast_le.mpr short.le
    have log := logb_le_logb_of_le (b := 10) (by norm_num)
      (pow_pos (Nat.cast_pos.mpr larger) m) cast
    have limit := log_safe
    rw [logb_pow] at log
    linarith
  · have estimate := Rat.cast_le (K := ℝ).mpr (estimate_of_one m)
    rw [show n = 1 by omega]
    push_cast at estimate
    linarith

end Decimal

end Formula
