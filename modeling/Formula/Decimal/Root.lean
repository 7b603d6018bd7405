import Formula.Decimal.Division
import Formula.Decimal.Rounding
import Formula.Error

set_option autoImplicit false

namespace Formula.Decimal.Root

def workingDigits : Nat := 78

def convergenceDigits : Nat := 76

def resultDigits : Nat := 64

def maxIterations : Nat := 1000

def initialGuess (magnitude : Decimal) (degree : Nat) : Decimal :=
  powerOfTen ((magnitude.order - 1) / degree)

def multiplied (x : Decimal) : Nat → Decimal → Decimal
  | 0, result => result
  | factors + 1, result => multiplied x factors ((result * x).withPrecision workingDigits)

def roundedPower (x : Decimal) (exponent : Nat) : Decimal := multiplied x exponent one

def step (value : Decimal) (degree : Nat) (x : Decimal) : Decimal :=
  let sum := ofInt (degree - 1) * x + value / roundedPower x (degree - 1)
  (sum / ofInt degree).withPrecision workingDigits

def converged (x next : Decimal) : Bool :=
  let delta := (next - x).abs
  delta.isZero || (delta * powerOfTen convergenceDigits).less next

def iterate (value : Decimal) (degree : Nat) : Nat → Decimal → Decimal
  | 0, x => x
  | steps + 1, x =>
    let next := step value degree x
    if converged x next then next else iterate value degree steps next

def ofMagnitude (magnitude : Decimal) (degree : Nat) : Decimal :=
  let x := iterate magnitude degree maxIterations (initialGuess magnitude degree)
  (x.withPrecision resultDigits).normalized

end Root

def nthRoot (value : Decimal) (degree : Nat) : Result Decimal :=
  if degree = 0 then .error (.of (.domainError "root" "the zeroth root is undefined"))
  else if value.isZero then .ok zero
  else if value.isNegative && degree % 2 == 0 then
    .error (.of (.domainError "root"
      ("root of degree " ++ toString degree ++ " of a negative number is not real")))
  else if degree = 1 then .ok value.normalized
  else
    let root := Root.ofMagnitude value.abs degree
    .ok (if value.isNegative then -root else root)

end Formula.Decimal
