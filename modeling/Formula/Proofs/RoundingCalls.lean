import Formula.Proofs.DefaultFunctions
import Formula.Proofs.HostErrors
import Formula.Proofs.RoundedPlaces

set_option autoImplicit false

namespace Formula

open Decimal (maxDigits maxScale)
open Exact (PastScale NearestMultiple)

namespace Expr

variable {env : Environment} {arg places : Expr} {x p : Decimal} {n : Nat}

theorem integer_call (defaults : env.HasDefaults) {name : String} {mode : Decimal.Rounding}
    (member : (Catalogue.ofNumber name fun d => .ok (d.rescale 0 mode)).function ∈
      Catalogue.functions)
    (bounded : x.Bounded) (given : (arg.eval env).outcome = .ok (.number x)) (span : Span) :
    (|x.toRat| < 10 ^ maxDigits →
      ((call name [arg] span).eval env).outcome = .ok (.number (x.rescale 0 mode))) ∧
    (10 ^ maxDigits ≤ |x.toRat| →
      ((call name [arg] span).eval env).outcome =
        .error (.located (.numberOutOfRange (name ++ "()")) span)) := by
  have computed : ((Catalogue.ofNumber name fun d => .ok (d.rescale 0 mode)).function.call
      [.number x]).outcome = .ok (.number (x.rescale 0 mode)) :=
    Function.verified_call rfl rfl nofun
  have flat : |(x.rescale 0 mode).scale| < 2 ^ 63 := by
    rw [Decimal.rescale_eq]
    exact show |(0 : Int)| < 2 ^ 63 by decide
  have outcome := default_number defaults member (.cons given .nil) computed flat span
  rw [Decimal.rescale_integer_bounded_iff bounded mode, not_lt] at outcome
  exact outcome

theorem round_computed (x : Decimal) (integer : p.toRat = n) (few : n ≤ 1000) :
    (Catalogue.functions[5].call [.number x, .number p]).outcome =
      .ok (.number (x.rescale n .halfAwayFromZero).normalized) := by
  have word : p.toWord? = some (n : Int) :=
    Decimal.to_word_of_value (by rw [integer, Int.cast_natCast])
      ((Decimal.fits_word_iff 63 n).mpr (by omega))
  have bounds : (decide (0 ≤ (n : Int)) && decide ((n : Int) ≤ Catalogue.maxPlaces)) = true := by
    rw [Bool.and_eq_true, decide_eq_true_iff, decide_eq_true_iff, Catalogue.maxPlaces]
    omega
  have read : (Catalogue.roundPlaces [.number x, .number p] : Result Int) = .ok (n : Int) := by
    rw [Catalogue.round_places_eq rfl, word, Option.filter_some, if_pos bounds]
  have first : (Catalogue.numberArg "round" [.number x, .number p] 0 : Result Decimal) = .ok x :=
    rfl
  refine (Function.verified_call (f := Catalogue.functions[5]) rfl rfl ?_).trans ?_
  · intro verifier own
    obtain rfl := Option.some.inj own
    dsimp only
    rw [read]
    rfl
  · change (do
      let d ← Catalogue.numberArg "round" [.number x, .number p] 0
      let places ← Catalogue.roundPlaces [.number x, .number p]
      pure (.number (d.rescale places .halfAwayFromZero).normalized) : Result Value) = _
    rw [first, read]
    rfl

theorem rounded_result_iff (bounded : x.Bounded) (few : n ≤ 1000) :
    |(x.rescale n .halfAwayFromZero).normalized.scale| < 2 ^ 63 ∧
      ((x.rescale n .halfAwayFromZero).normalized.Bounded ↔
        ¬ PastScale (x.rescale n .halfAwayFromZero).toRat) := by
  have near : (n : Int) ≤ maxScale := by
    rw [maxScale]
    omega
  exact Decimal.rounded_bounded_iff bounded (Int.natCast_nonneg n) near .halfAwayFromZero

theorem round_call (defaults : env.HasDefaults) (bounded : x.Bounded) (integer : p.toRat = n)
    (few : n ≤ 1000) (number : (arg.eval env).outcome = .ok (.number x))
    (digits : (places.eval env).outcome = .ok (.number p)) (span : Span) :
    (¬ PastScale (x.rescale n .halfAwayFromZero).toRat →
      ((call "round" [arg, places] span).eval env).outcome =
        .ok (.number (x.rescale n .halfAwayFromZero).normalized)) ∧
    (PastScale (x.rescale n .halfAwayFromZero).toRat →
      ((call "round" [arg, places] span).eval env).outcome =
        .error (.located (.numberOutOfRange "round()") span)) := by
  obtain ⟨inner, range⟩ := rounded_result_iff bounded few
  have outcome := default_number defaults (f := Catalogue.functions[5]) (List.getElem_mem _)
    (.cons number (.cons digits .nil)) (round_computed x integer few) inner span
  rw [range, not_not] at outcome
  exact outcome

theorem rounded_twice_call (defaults : env.HasDefaults) (bounded : x.Bounded)
    (integer : p.toRat = n) (few : n ≤ 1000)
    (stays : ¬ PastScale (x.rescale n .halfAwayFromZero).toRat)
    (rounded : (arg.eval env).outcome =
      .ok (.number (x.rescale n .halfAwayFromZero).normalized))
    (digits : (places.eval env).outcome = .ok (.number p)) (span : Span) :
    ((call "round" [arg, places] span).eval env).outcome =
      .ok (.number (x.rescale n .halfAwayFromZero).normalized) := by
  have within := (rounded_result_iff bounded few).2.mpr stays
  have again := Decimal.rescale_again x n .halfAwayFromZero
  rw [(round_call defaults within integer few rounded digits span).1 (by rwa [again]),
    (Decimal.normalized_eq_iff _ _).mpr again]

end Expr

theorem parsed_floor : parse "floor(x)" = .ok (.call "floor" [.name "x" ⟨6, 7⟩] ⟨0, 8⟩) := by
  with_unfolding_all rfl

theorem parsed_ceil : parse "ceil(x)" = .ok (.call "ceil" [.name "x" ⟨5, 6⟩] ⟨0, 7⟩) := by
  with_unfolding_all rfl

theorem parsed_round :
    parse "round(x, p)" =
      .ok (.call "round" [.name "x" ⟨6, 7⟩, .name "p" ⟨9, 10⟩] ⟨0, 11⟩) := by
  with_unfolding_all rfl

theorem parsed_rounded_twice :
    parse "round(round(x, p), p) == round(x, p)" =
      .ok (.binary .equal
        (.call "round" [.call "round" [.name "x" ⟨12, 13⟩, .name "p" ⟨15, 16⟩] ⟨6, 17⟩,
          .name "p" ⟨19, 20⟩] ⟨0, 21⟩)
        (.call "round" [.name "x" ⟨31, 32⟩, .name "p" ⟨34, 35⟩] ⟨25, 36⟩) ⟨0, 36⟩) := by
  with_unfolding_all rfl

section

variable {env : Environment} {x p : Decimal} {n : Nat} (defaults : env.HasDefaults)
  (bounded : x.Bounded) (number : env.get? "x" = some (.value (.number x)))

include defaults bounded number

theorem evaluate_floor :
    (|x.toRat| < 10 ^ maxDigits → evaluate "floor(x)" env = .ok (.number (x.rescale 0 .floor))) ∧
    (10 ^ maxDigits ≤ |x.toRat| →
      evaluate "floor(x)" env = .error (.located (.numberOutOfRange "floor()") ⟨0, 8⟩)) := by
  rw [evaluate_of_parsed parsed_floor]
  have member := List.getElem_mem (l := Catalogue.functions) (n := 2) (by decide)
  exact Expr.integer_call defaults member bounded (Expr.name_value number _) _

theorem evaluate_ceil :
    (|x.toRat| < 10 ^ maxDigits → evaluate "ceil(x)" env = .ok (.number (x.rescale 0 .ceiling))) ∧
    (10 ^ maxDigits ≤ |x.toRat| →
      evaluate "ceil(x)" env = .error (.located (.numberOutOfRange "ceil()") ⟨0, 7⟩)) := by
  rw [evaluate_of_parsed parsed_ceil]
  have member := List.getElem_mem (l := Catalogue.functions) (n := 1) (by decide)
  exact Expr.integer_call defaults member bounded (Expr.name_value number _) _

variable (places : env.get? "p" = some (.value (.number p))) (integer : p.toRat = n)
  (few : n ≤ 1000)

include places integer few

theorem evaluate_round :
    (¬ PastScale (x.rescale n .halfAwayFromZero).toRat →
      evaluate "round(x, p)" env = .ok (.number (x.rescale n .halfAwayFromZero).normalized)) ∧
    (PastScale (x.rescale n .halfAwayFromZero).toRat →
      evaluate "round(x, p)" env = .error (.located (.numberOutOfRange "round()") ⟨0, 11⟩)) := by
  rw [evaluate_of_parsed parsed_round]
  exact Expr.round_call defaults bounded integer few (Expr.name_value number _)
    (Expr.name_value places _) _

theorem evaluate_rounded_twice (stays : ¬ PastScale (x.rescale n .halfAwayFromZero).toRat) :
    evaluate "round(round(x, p), p) == round(x, p)" env = .ok (.boolean true) := by
  have digits (span : Span) := Expr.name_value places span
  have once (span a b : Span) := (Expr.round_call defaults bounded integer few
    (Expr.name_value number a) (digits b) span).1 stays
  rw [evaluate_of_parsed parsed_rounded_twice]
  exact Expr.equal_numbers (Expr.rounded_twice_call defaults bounded integer few stays
    (once _ _ _) (digits _) _) (once _ _ _) rfl _

end

/-- Of a number in range that is not too long to be written out, `floor` is the greatest integer
not above it and `ceil` the least one not below it; longer numbers are refused. What `round` gives
is the multiple of a power of ten nearest to the number, of two the one away from zero, and it is
found again if it is rounded again. It is refused if its trailing zeros are more than a scale makes
up for. -/
theorem rounding_functions_right {env : Environment} (defaults : env.HasDefaults) {x p : Decimal}
    {n : Nat} (bounded : x.Bounded) (number : env.get? "x" = some (.value (.number x)))
    (places : env.get? "p" = some (.value (.number p))) (integer : p.toRat = n) (few : n ≤ 1000) :
    (|x.toRat| < 10 ^ maxDigits →
      (∃ r : Decimal, evaluate "floor(x)" env = .ok (.number r) ∧ r.toRat = ⌊x.toRat⌋) ∧
      ∃ r : Decimal, evaluate "ceil(x)" env = .ok (.number r) ∧ r.toRat = ⌈x.toRat⌉) ∧
    (10 ^ maxDigits ≤ |x.toRat| →
      evaluate "floor(x)" env = .error (.located (.numberOutOfRange "floor()") ⟨0, 8⟩) ∧
      evaluate "ceil(x)" env = .error (.located (.numberOutOfRange "ceil()") ⟨0, 7⟩)) ∧
    ∃ r : ℚ, NearestMultiple n x.toRat r ∧
      (¬ PastScale r →
        (∃ d : Decimal, evaluate "round(x, p)" env = .ok (.number d) ∧ d.toRat = r) ∧
        evaluate "round(round(x, p), p) == round(x, p)" env = .ok (.boolean true)) ∧
      (PastScale r →
        evaluate "round(x, p)" env = .error (.located (.numberOutOfRange "round()") ⟨0, 11⟩)) := by
  have floor := evaluate_floor defaults bounded number
  have ceil := evaluate_ceil defaults bounded number
  have round := evaluate_round defaults bounded number places integer few
  have whole (mode : Decimal.Rounding) :
      (x.rescale 0 mode).toRat = Exact.toInteger mode x.toRat := by
    rw [Decimal.rescale_value, zpow_zero, mul_one, div_one]
  refine ⟨fun short => ⟨⟨_, floor.1 short, whole _⟩, ⟨_, ceil.1 short, whole _⟩⟩,
    fun long => ⟨floor.2 long, ceil.2 long⟩, (x.rescale n .halfAwayFromZero).toRat, ?_, ?_,
    round.2⟩
  · rw [Decimal.rescale_value, zpow_natCast]
    exact Exact.half_nearest n x.toRat
  · intro stays
    exact ⟨⟨_, round.1 stays, Decimal.normalized_value _⟩,
      evaluate_rounded_twice defaults bounded number places integer few stays⟩

theorem rounding_functions_right_of_half :
    ∃ env : Environment, env.HasDefaults ∧ env.get? "x" = some (.value (.number ⟨25, 1⟩)) ∧
      (∃ r : Decimal, evaluate "floor(x)" env = .ok (.number r) ∧
        r.toRat = ⌊Decimal.toRat ⟨25, 1⟩⌋) ∧
      (∃ r : Decimal, evaluate "ceil(x)" env = .ok (.number r) ∧
        r.toRat = ⌈Decimal.toRat ⟨25, 1⟩⌉) ∧
      ∃ d : Decimal, evaluate "round(x, p)" env = .ok (.number d) ∧
        NearestMultiple 0 (Decimal.toRat ⟨25, 1⟩) d.toRat := by
  obtain ⟨env, defaults, number, places⟩ :=
    Environment.exists_with_variables (.number ⟨25, 1⟩) (.number ⟨0, 0⟩)
  have half : Decimal.toRat ⟨25, 1⟩ = 5 / 2 := by norm_num [Decimal.toRat]
  have ten : (10 : ℚ) ≤ 10 ^ maxDigits := le_self_pow₀ (by norm_num) (by decide)
  obtain ⟨next, -, r, nearest, rounded, -⟩ := rounding_functions_right (n := 0) defaults
    ⟨by decide, by decide +kernel⟩ number places (by norm_num [Decimal.toRat]) (by omega)
  have small : ¬ PastScale r := by
    apply Exact.not_past_of_small
    have three := nearest.nearest 3
    have triangle := abs_sub_abs_le_abs_sub r (Decimal.toRat ⟨25, 1⟩)
    have large : (10 : ℚ) ^ (1 : Int) ≤ 10 ^ (maxScale + 1) :=
      zpow_le_zpow_right₀ (by norm_num) (by decide)
    rw [zpow_one] at large
    rw [half] at three triangle
    norm_num at three triangle
    linarith
  obtain ⟨floor, ceil⟩ := next (by rw [half]; norm_num; linarith)
  obtain ⟨d, ok, value⟩ := (rounded small).1
  exact ⟨env, defaults, number, floor, ceil, d, ok, by rwa [value]⟩

/-- Ten to the 250000 is its own floor and ceiling, and ten to the 100001 is an integer, but the
results are refused. -/
theorem rounding_functions_refuse :
    ((Decimal.writtenPower 150000 (-100000)).Bounded ∧
      ∃ env : Environment, env.HasDefaults ∧
        env.get? "x" = some (.value (.number (Decimal.writtenPower 150000 (-100000)))) ∧
        evaluate "floor(x)" env = .error (.located (.numberOutOfRange "floor()") ⟨0, 8⟩) ∧
        evaluate "ceil(x)" env = .error (.located (.numberOutOfRange "ceil()") ⟨0, 7⟩)) ∧
    (Decimal.writtenPower 100001 0).Bounded ∧
      ∃ env : Environment, env.HasDefaults ∧
        env.get? "x" = some (.value (.number (Decimal.writtenPower 100001 0))) ∧
        env.get? "p" = some (.value (.number .zero)) ∧
        evaluate "round(x, p)" env = .error (.located (.numberOutOfRange "round()") ⟨0, 11⟩) := by
  have bounded := Decimal.long_power_bounded
  have bounded' : (Decimal.writtenPower 100001 0).Bounded :=
    Decimal.written_power_bounded (by decide) (by decide)
  refine ⟨⟨bounded, ?_⟩, bounded', ?_⟩
  · obtain ⟨env, defaults, number, -⟩ := Environment.exists_with_variables
      (.number (Decimal.writtenPower 150000 (-100000))) (.number .zero)
    have long := Decimal.long_power_value.ge
    exact ⟨env, defaults, number, (evaluate_floor defaults bounded number).2 long,
      (evaluate_ceil defaults bounded number).2 long⟩
  · obtain ⟨env, defaults, number, places⟩ := Environment.exists_with_variables
      (.number (Decimal.writtenPower 100001 0)) (.number .zero)
    have past : PastScale
        ((Decimal.writtenPower 100001 0).rescale (0 : Nat) .halfAwayFromZero).toRat := by
      have scale : ((100001 : Nat) : Int) - 0 = maxScale + 1 := by decide
      rw [Decimal.rescale_same (by decide), Decimal.written_power_value, scale]
      exact ⟨(Decimal.scale_pos _).ne', 1, by rw [Int.cast_one, one_mul]⟩
    have flat : Decimal.zero.toRat = (0 : Nat) := by rw [Decimal.zero_value, Nat.cast_zero]
    exact ⟨env, defaults, number, places,
      (evaluate_round defaults bounded' number places flat (by omega)).2 past⟩

end Formula
