import Formula.Proofs.DefaultFunctions
import Formula.Proofs.FittingPowers
import Formula.Proofs.HostErrors

set_option autoImplicit false

namespace Formula

theorem call_error_arithmetic (f : Function) (span : Span) {cause : Cause}
    (arithmetic : cause.category = .arithmetic) :
    callError f span (.of cause) = .located cause span := by
  cases cause <;> first | rfl | cases arithmetic

theorem pow_listed : Catalogue.functions[4] ∈ Catalogue.functions := List.getElem_mem _

theorem pow_call (x y : Decimal) :
    (Catalogue.functions[4].call [.number x, .number y]).outcome = (x.power y).map .number := by
  refine (Function.verified_call (f := Catalogue.functions[4]) rfl rfl nofun).trans ?_
  change (x.power y >>= fun r => pure (Value.number r)) = _
  cases x.power y <;> rfl

namespace Expr

variable {env : Environment} {n : String} {a b : Expr} {args : List Expr} {f : Function}
  {values : List Value} {x y r : Decimal} {cause : Cause}

theorem call_number (found : env.get? n = some (.function f))
    (given : List.Forall₂ (fun arg value => (arg.eval env).outcome = .ok value) args values)
    (returned : (f.call values).outcome = .ok (.number r)) (range : r.inRange = some true)
    (span : Span) : ((call n args span).eval env).outcome = .ok (.number r) := by
  exact (returned_number found given returned span).inside (Decimal.in_range_iff_bounded.mp range)

theorem call_arithmetic (found : env.get? n = some (.function f))
    (given : List.Forall₂ (fun arg value => (arg.eval env).outcome = .ok value) args values)
    (raised : (f.call values).outcome = .error (.of cause))
    (arithmetic : cause.category = .arithmetic) (span : Span) :
    ((call n args span).eval env).outcome = .error (.located cause span) := by
  rw [called_outcome found given, raised]
  change (.error (.failed (callError f span (.of cause))) : Result Value) = _
  rw [call_error_arithmetic f span arithmetic]
  rfl

theorem power_operator (base : (a.eval env).outcome = .ok (.number x))
    (exponent : (b.eval env).outcome = .ok (.number y)) (span : Span) :
    ((binary .power a b span).eval env).outcome = atNode span ((x.power y).map .number) := by
  rw [eval, Traced.bind_from base, Traced.bind_from exponent]
  rfl

/-- The operator `^` and the function `pow` give the same number, in the same form, or they fail
with the same cause and without help, each at its own place, or neither comes back. -/
theorem power_operator_agrees (defaults : env.HasDefaults)
    (base : (a.eval env).outcome = .ok (.number x))
    (exponent : (b.eval env).outcome = .ok (.number y)) (place place' : Span) :
    (∃ r, x.power y = .ok r ∧
      ((binary .power a b place).eval env).outcome = .ok (.number r) ∧
      ((call "pow" [a, b] place').eval env).outcome = .ok (.number r)) ∨
    (∃ cause, x.power y = .error (.of cause) ∧
      ((binary .power a b place).eval env).outcome =
        .error (.failed ⟨cause, some place, none⟩) ∧
      ((call "pow" [a, b] place').eval env).outcome =
        .error (.failed ⟨cause, some place', none⟩)) ∨
    (x.power y = .error .panicked ∧
      ((binary .power a b place).eval env).outcome = .error .panicked ∧
      ((call "pow" [a, b] place').eval env).outcome = .error .panicked) := by
  have found : env.get? "pow" = some (.function Catalogue.functions[4]) :=
    defaults.default_bound pow_listed
  have given : List.Forall₂ (fun arg value => (arg.eval env).outcome = .ok value) [a, b]
      [.number x, .number y] := .cons base (.cons exponent .nil)
  have called := pow_call x y
  rw [power_operator base exponent]
  rcases computed : x.power y with (e | _) | r
  · obtain ⟨cause, rfl, arithmetic⟩ := Decimal.power_arithmetic x y e computed
    rw [computed] at called
    exact .inr (.inl ⟨cause, rfl, rfl, call_arithmetic found given called arithmetic _⟩)
  · rw [computed] at called
    exact .inr (.inr ⟨rfl, rfl, by rw [called_outcome found given, called]; rfl⟩)
  · rw [computed] at called
    exact .inl ⟨r, rfl, rfl, call_number found given called (Decimal.power_in_range computed) _⟩

theorem one_eighth : Decimal.power ⟨2, 0⟩ ⟨-3, 0⟩ = .ok ⟨125, 3⟩ := by
  have form : (⟨2, 0⟩ : Decimal).normalized = ⟨2, 0⟩ := by decide +kernel
  have reach : (⟨2, 0⟩ : Decimal).powerInReach 3 = some true :=
    Decimal.reach_iff.mpr ⟨by omega, by decide, Decimal.short_power_reached (by decide) (by omega)
      (Decimal.safe_of_few (by decide +kernel) (by decide +kernel))⟩
  rw [Decimal.power_plain (n := -3) (by norm_num [Decimal.toRat]) (by decide) (by decide)
    (by decide +kernel) (by decide), form, show (-3 : Int).natAbs = 3 from rfl, reach]
  decide +kernel

theorem power_operator_agrees_of_inverses :
    let exponent := literal (.number ⟨-3, 0⟩) ⟨4, 6⟩
    let base := fun x => literal (.number ⟨x, 0⟩) ⟨0, 1⟩
    (((binary .power (base 2) exponent ⟨0, 6⟩).eval Catalogue.environment).outcome =
        .ok (.number ⟨125, 3⟩) ∧
      ((call "pow" [base 2, exponent] ⟨0, 9⟩).eval Catalogue.environment).outcome =
        .ok (.number ⟨125, 3⟩)) ∧
    ((binary .power (base 0) exponent ⟨0, 6⟩).eval Catalogue.environment).outcome =
        .error (.located .divisionByZero ⟨0, 6⟩) ∧
      ((call "pow" [base 0, exponent] ⟨0, 9⟩).eval Catalogue.environment).outcome =
        .error (.located .divisionByZero ⟨0, 9⟩) := by
  have refused : Decimal.power ⟨0, 0⟩ ⟨-3, 0⟩ = .error (.of .divisionByZero) := by decide +kernel
  have defaults : Environment.HasDefaults Catalogue.environment := Environment.extends_refl _
  have agree (x : Int) := power_operator_agrees (a := literal (.number ⟨x, 0⟩) ⟨0, 1⟩)
    (b := literal (.number ⟨-3, 0⟩) ⟨4, 6⟩) (x := ⟨x, 0⟩) (y := ⟨-3, 0⟩) defaults rfl rfl
    ⟨0, 6⟩ ⟨0, 9⟩
  constructor
  · obtain ⟨r, ok, operator, function⟩ | ⟨cause, failed, -⟩ | ⟨panics, -⟩ := agree 2
    · rw [one_eighth] at ok
      cases ok
      exact ⟨operator, function⟩
    · rw [one_eighth] at failed
      cases failed
    · rw [one_eighth] at panics
      cases panics
  · obtain ⟨r, ok, -⟩ | ⟨cause, failed, operator, function⟩ | ⟨panics, -⟩ := agree 0
    · rw [refused] at ok
      cases ok
    · rw [refused] at failed
      cases failed
      exact ⟨operator, function⟩
    · rw [refused] at panics
      cases panics

end Expr

end Formula
