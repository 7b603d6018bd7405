import Formula.Decimal.Range
import Formula.Decimal.Text
import Formula.Proofs.Digits
import Mathlib.Algebra.Order.Group.Unbundled.Abs
import Mathlib.Tactic.Linarith

set_option autoImplicit false

namespace Formula.Decimal

theorem fits_word_iff (bits : Nat) (n : Int) :
    fitsWord bits n = true ↔ -(2 ^ bits : Int) ≤ n ∧ n < 2 ^ bits := by
  rw [fitsWord, Bool.and_eq_true, decide_eq_true_iff, decide_eq_true_iff, two_pow_eq, Nat.cast_pow,
    Nat.cast_ofNat]

theorem fits_of_lt {n : Int} (inner : |n| < 2 ^ 63) : fitsWord 63 n = true := by
  have bounds := abs_lt.mp inner
  exact (fits_word_iff 63 n).mpr ⟨bounds.1.le, bounds.2⟩

theorem scale_magnitude_none {scale : Int} :
    scaleMagnitude scale = none ↔ scale = lowestScale := by
  rw [scaleMagnitude]
  split <;> simp_all

theorem scale_magnitude_some {scale : Int} (other : scale ≠ lowestScale) :
    scaleMagnitude scale = some |scale| := by
  rw [scaleMagnitude, if_neg other, Int.abs_eq_natAbs]

def writtenDigits (n : Nat) : Nat := (Nat.toDigits 10 n).length

theorem count_eq_written (n : Nat) : Digits.count n = writtenDigits n := by
  apply le_antisymm
  · have some : 0 < writtenDigits n := Nat.length_toDigits_pos
    exact Digits.count_le some ((Nat.length_toDigits_le_iff (by norm_num) some).mp le_rfl)
  · exact (Nat.length_toDigits_le_iff (by norm_num) (Digits.count_pos n)).mpr
      (Digits.lt_pow_count n)

structure Bounded (d : Decimal) : Prop where
  scale : |d.scale| ≤ maxScale
  short : writtenDigits d.unscaled.natAbs ≤ maxDigits

theorem Bounded.of_le {d e : Decimal} (bounded : e.Bounded) (scale : d.scale = e.scale)
    (less : d.unscaled.natAbs ≤ e.unscaled.natAbs) : d.Bounded := by
  have short := bounded.short
  rw [← count_eq_written] at short
  refine ⟨scale ▸ bounded.scale, ?_⟩
  rw [← count_eq_written]
  exact le_trans (Digits.count_mono less) short

theorem bounded_off_lowest {d : Decimal} (bounded : d.Bounded) : d.scale ≠ lowestScale := by
  intro lowest
  have near := bounded.scale
  rw [lowest] at near
  exact absurd near (by decide)

theorem in_range_none {d : Decimal} : d.inRange = none ↔ d.scale = lowestScale := by
  rw [inRange, Option.map_eq_none_iff, scale_magnitude_none]

theorem in_range_some {d : Decimal} (other : d.scale ≠ lowestScale) {admitted : Bool} :
    d.inRange = some admitted ↔ (admitted = true ↔ d.Bounded) := by
  have parts : d.Bounded ↔ |d.scale| ≤ maxScale ∧ d.digits ≤ maxDigits := by
    rw [digits, count_eq_written]
    exact ⟨fun bounded => ⟨bounded.scale, bounded.short⟩, fun both => ⟨both.1, both.2⟩⟩
  rw [inRange, scale_magnitude_some other, Option.map_some, Option.some_inj, Bool.eq_iff_iff,
    Bool.and_eq_true, decide_eq_true_iff, decide_eq_true_iff, ← parts]
  exact iff_comm

theorem in_range_iff_bounded {d : Decimal} : d.inRange = some true ↔ d.Bounded := by
  by_cases lowest : d.scale = lowestScale
  · rw [in_range_none.mpr lowest]
    exact iff_of_false nofun fun bounded => bounded_off_lowest bounded lowest
  · rw [in_range_some lowest]
    exact ⟨fun same => same.mp rfl, fun bounded => ⟨fun _ => bounded, fun _ => rfl⟩⟩

theorem in_range_iff_past {d : Decimal} :
    d.inRange = some false ↔ d.scale ≠ lowestScale ∧ ¬ d.Bounded := by
  by_cases lowest : d.scale = lowestScale
  · rw [in_range_none.mpr lowest]
    exact iff_of_false nofun fun both => both.1 lowest
  · rw [in_range_some lowest, and_iff_right lowest]
    exact ⟨fun same bounded => Bool.false_ne_true (same.mpr bounded),
      fun past => iff_of_false Bool.false_ne_true past⟩

section

variable {ε α : Type} {d : Decimal} (inside outside : Except (Stop ε) α)

theorem by_range_bounded (bounded : d.Bounded) : d.byRange inside outside = inside := by
  rw [byRange, in_range_iff_bounded.mpr bounded]

theorem by_range_past (other : d.scale ≠ lowestScale) (past : ¬ d.Bounded) :
    d.byRange inside outside = outside := by
  rw [byRange, in_range_iff_past.mpr ⟨other, past⟩]

theorem by_range_lowest (lowest : d.scale = lowestScale) :
    d.byRange inside outside = .error .panicked := by
  rw [byRange, in_range_none.mpr lowest]

end

theorem bounded_of_few {n : Int} (few : n.natAbs < 1000) : Bounded ⟨n, 0⟩ := by
  have flat : |(0 : Int)| ≤ maxScale := by decide
  refine ⟨flat, ?_⟩
  rw [← count_eq_written]
  exact le_trans (Digits.count_le (show 0 < 3 by omega) few) (by decide)

theorem one_bounded : one.Bounded := bounded_of_few (by decide)

end Formula.Decimal
