import Formula.Decimal.Power
import Formula.Proofs.RoundedQuotient
import Formula.Proofs.ScaleWords

set_option autoImplicit false

namespace Formula.Decimal

open Binary

theorem inner_off_lowest {scale : Int} (inner : |scale| < 2 ^ 63) : scale ≠ lowestScale := by
  rintro rfl
  exact absurd inner (by decide)

theorem bounded_inner {d : Decimal} (bounded : d.Bounded) : |d.scale| < 2 ^ 63 :=
  lt_of_le_of_lt bounded.scale (by decide)

theorem ensured_outcomes {d : Decimal} (inner : |d.scale| < 2 ^ 63) (operation : String) :
    d.ensureInRange operation = .ok d ∨
      d.ensureInRange operation = .error (.of (.numberOutOfRange operation)) := by
  by_cases bounded : d.Bounded
  · exact .inl (by_range_bounded _ _ bounded)
  · exact .inr (by_range_past _ _ (inner_off_lowest inner) bounded)

theorem ensured_never_panics {d : Decimal} (inner : |d.scale| < 2 ^ 63) (operation : String) :
    d.ensureInRange operation ≠ .error .panicked := by
  rcases ensured_outcomes inner operation with ok | refused
  · rw [ok]
    nofun
  · rw [refused]
    nofun

section

variable {a b : Decimal}

theorem common_scale_inner (left : a.Bounded) (right : b.Bounded) :
    |a.commonScale b| < 2 ^ 63 := by
  rw [commonScale]
  split
  · exact bounded_inner right
  · exact bounded_inner left

theorem add_scale_inner (left : a.Bounded) (right : b.Bounded) : |(a + b).scale| < 2 ^ 63 :=
  common_scale_inner left right

theorem sub_scale_inner (left : a.Bounded) (right : b.Bounded) : |(a - b).scale| < 2 ^ 63 := by
  change |(a.sub b).scale| < 2 ^ 63
  rw [sub]
  split
  · exact bounded_inner left
  split
  · exact bounded_inner (d := b) right
  · exact common_scale_inner left right

theorem mul_scale_inner (left : a.Bounded) (right : b.Bounded) : |(a * b).scale| < 2 ^ 63 := by
  change |(a.mul b).scale| < 2 ^ 63
  rw [mul]
  split
  · exact bounded_inner right
  split
  · exact bounded_inner left
  · refine lt_of_le_of_lt (abs_add_le a.scale b.scale) ?_
    exact lt_of_le_of_lt (add_le_add left.scale right.scale) (by decide)

end

theorem strip_places_lt {n : Nat} (positive : n ≠ 0) : (Digits.strip n).2 < Digits.count n := by
  have value := Digits.strip_value n
  have some : (Digits.strip n).1 ≠ 0 := by
    intro nothing
    rw [nothing, zero_mul] at value
    exact positive value
  apply (Nat.pow_lt_pow_iff_right (show 1 < 10 by omega)).mp
  calc
    10 ^ (Digits.strip n).2 ≤ (Digits.strip n).1 * 10 ^ (Digits.strip n).2 :=
      Nat.le_mul_of_pos_left _ (Nat.pos_of_ne_zero some)
    _ = n := value.symm
    _ < 10 ^ Digits.count n := Digits.lt_pow_count n

theorem normalized_scale_le {d : Decimal} (bounded : d.Bounded) :
    |d.normalized.scale| ≤ maxScale + maxDigits := by
  have near := bounded.scale
  have short := bounded.short
  rw [← count_eq_written] at short
  rw [normalized]
  by_cases nothing : d.unscaled = 0
  · rw [if_pos nothing]
    decide
  · have places := strip_places_lt (Int.natAbs_ne_zero.mpr nothing)
    rw [if_neg nothing]
    rw [abs_le] at near ⊢
    dsimp only
    omega

theorem normalized_magnitude_le (d : Decimal) :
    d.normalized.unscaled.natAbs ≤ d.unscaled.natAbs := by
  rw [normalized]
  by_cases nothing : d.unscaled = 0
  · rw [if_pos nothing, nothing]
    exact le_rfl
  · rw [if_neg nothing]
    calc
      (d.unscaled.sign * (Digits.strip d.unscaled.natAbs).1).natAbs =
          (Digits.strip d.unscaled.natAbs).1 := by
        rw [Int.natAbs_mul, Int.natAbs_sign_of_ne_zero nothing, one_mul, Int.natAbs_natCast]
      _ ≤ (Digits.strip d.unscaled.natAbs).1 * 10 ^ (Digits.strip d.unscaled.natAbs).2 :=
        Nat.le_mul_of_pos_right _ (by positivity)
      _ = d.unscaled.natAbs := (Digits.strip_value _).symm

theorem write_of_bounded {ε : Type} {d : Decimal} (bounded : d.Bounded) :
    d.write (ε := ε) = .ok d.text := by
  have near := abs_le.mp (normalized_scale_le bounded)
  have short := bounded.short
  have digits := Digits.count_mono (normalized_magnitude_le d)
  rw [← count_eq_written, maxDigits] at short
  rw [maxScale, maxDigits] at near
  have fits : d.fitsText = true := by
    rw [fitsText, decide_eq_true_iff, textLimit, two_pow_eq]
    omega
  rw [write, if_pos fits]

theorem leading_shift_le (num den : Nat) : leadingShift num den ≤ Digits.count den + 1 := by
  rw [leadingShift]
  split <;> omega

theorem divide_places_le (num den : Nat) :
    (divideMagnitudes num den).2 ≤ Digits.count den + 101 := by
  have shift := leading_shift_le num den
  have places := (developed_places num den (leadingShift num den)).1
  rw [divide_magnitudes_eq]
  rw [quotientDigits] at places
  omega

theorem div_scale_inner {a b : Decimal} (dividend : a.Bounded) (divisor : b.Bounded) :
    |a.scale - b.scale| < 2 ^ 63 ∧ |(a / b).scale| < 2 ^ 63 := by
  have nearA := abs_le.mp dividend.scale
  have nearB := abs_le.mp divisor.scale
  have short := divisor.short
  have places := divide_places_le a.unscaled.natAbs b.unscaled.natAbs
  rw [← count_eq_written] at short
  rw [maxScale] at nearA nearB
  rw [maxDigits] at short
  change _ ∧ |(a.div b).scale| < 2 ^ 63
  rw [div]
  refine ⟨abs_lt.mpr (by omega), ?_⟩
  split
  · exact abs_lt.mpr (by omega)
  split
  · exact abs_lt.mpr (by dsimp only; omega)
  · exact abs_lt.mpr (by dsimp only; omega)

theorem leading_exponent_ge (num den : Nat) :
    -(Digits.count den : Int) ≤ Double.leadingExponent num den := by
  have counted := Digits.count_pos num
  rw [Double.leadingExponent]
  split <;> omega

theorem search_scale_le (i : Double.Interval) (tie : Double.Tie) (steps : Nat) (place : Int) :
    (Double.searchGrid i tie steps place).scale ≤ steps - place := by
  induction steps generalizing place with
  | zero =>
    rw [Double.searchGrid]
    dsimp only
    omega
  | succ steps ih =>
    rw [Double.searchGrid]
    cases Double.onGrid i tie place with
    | some n =>
      dsimp only
      omega
    | none =>
      have further := ih (place - 1)
      dsimp only
      omega

theorem normalized_scale_le_self (d : Decimal) : d.normalized.scale ≤ max d.scale 0 := by
  rw [normalized]
  split
  · exact le_max_right _ _
  · refine le_trans ?_ (le_max_left _ _)
    dsimp only
    omega

theorem least_exponent_le (x : Float) : leastExponent ≤ (ofFloat x).exponent := by
  rw [ofFloat]
  split
  · exact le_rfl
  · dsimp only
    omega

theorem shortest_scale_le {b : Binary} (least : leastExponent ≤ b.exponent) (tie : Double.Tie) :
    (Double.shortest tie b).scale ≤ 1100 := by
  have den : Digits.count (Double.Interval.of b).den ≤ 1080 := by
    apply Digits.count_le (by omega)
    have places : (-b.exponent).toNat ≤ 1074 := by
      rw [leastExponent] at least
      omega
    calc
      4 * 2 ^ (-b.exponent).toNat ≤ 4 * 2 ^ 1074 :=
        Nat.mul_le_mul_left 4 (Nat.pow_le_pow_right (by omega) places)
      _ < 10 ^ 1080 := by decide +kernel
  have first := leading_exponent_ge (Double.Interval.of b).value (Double.Interval.of b).den
  rw [Double.shortest]
  refine le_trans (normalized_scale_le_self _) (max_le ?_ (by omega))
  refine le_trans (search_scale_le _ _ _ _) ?_
  push_cast
  omega

theorem of_float_scale {x : Float} {d : Decimal} (found : ofFloat? x = some d) :
    |d.scale| < 2 ^ 63 := by
  have short := shortest_scale_le (least_exponent_le x) .up
  rw [ofFloat?] at found
  by_cases finite : (!x.isFinite) = true
  · rw [if_pos finite] at found
    cases found
  · rw [if_neg finite] at found
    dsimp only at found
    generalize Double.shortest .up (ofFloat x) = e at found short
    by_cases nothing : (ofFloat x).significand = 0
    · rw [if_pos nothing] at found
      cases found
      decide
    · rw [if_neg nothing, Option.some_inj] at found
      have scale : d.scale = if e.scale < 0 then 0 else e.scale := by
        rw [← found]
        by_cases whole : e.scale < 0
        · simp only [if_pos whole]
          split <;> rfl
        · simp only [if_neg whole]
          split <;> rfl
      rw [scale, abs_lt]
      split <;> omega

end Formula.Decimal
