import Formula.Decimal.Division
import Formula.Decimal.Float
import Formula.Decimal.Range
import Formula.Double.Logarithm
import Formula.Error

set_option autoImplicit false

namespace Formula.Decimal

def ensureInRange (d : Decimal) (operation : String) : Result Decimal :=
  d.byRange (.ok d) (.error (.of (.numberOutOfRange operation)))

def log10OfTwo : Binary := Binary.nearest 301029995663981195213738894724 (tenPow 30)

def log10Magnitude (n : Nat) : Binary :=
  let rounded := Binary.ofNat n
  if rounded.overflows then (Binary.ofNat (bitCount n)).mul log10OfTwo else rounded.log10

def estimatedDigits (n m : Nat) : Binary :=
  ((log10Magnitude n).mul (Binary.ofNat m)).add (Binary.ofNat 1)

def squaring (result square : Decimal) (exponent : Nat) : Decimal :=
  if exponent = 0 then result
  else
    squaring (if exponent % 2 = 1 then result * square else result)
      (if exponent = 1 then square else square * square) (exponent / 2)
termination_by exponent

def exactPower (base : Decimal) (exponent : Nat) : Decimal := squaring one base exponent

-- Whether a power of a number without trailing zeros is within reach: its scale, which is the
-- product, fits its word and the range, and it is not estimated too long.
def powerInReach (base : Decimal) (exponent : Nat) : Option Bool :=
  let scale := base.scale * exponent
  if exponent < twoPow 63 ∧ fitsWord 63 scale then
    (scaleMagnitude scale).map fun magnitude =>
      decide (magnitude ≤ maxScale) &&
        !(Binary.ofNat maxDigits).less (estimatedDigits base.unscaled.natAbs exponent)
  else some false

def toWord? (d : Decimal) : Option Int := d.toInt?.filter (fitsWord 63)

def integerPower (base exponent : Decimal) : Result Decimal :=
  if exponent.isZero then .ok one
  else if base.isZero then .ok zero
  else if base.abs.sameNumber one then
    .ok (if base.isNegative && exponent.isOdd then -one else one)
  else
    match exponent.toWord? with
    | none => .error (.of (.numberOutOfRange "^"))
    | some n =>
      let base := base.normalized
      match powerInReach base n.natAbs with
      | some true =>
        let result := exactPower base n.natAbs
        if n < 0 then ensureInRange (one / result) "^" else .ok result
      | some false => .error (.of (.numberOutOfRange "^"))
      | none => .error .panicked

def power (base exponent : Decimal) : Result Decimal :=
  if base.isZero && exponent.isNegative then .error (.of .divisionByZero)
  else if exponent.isInteger then integerPower base exponent
  else
    match ofFloat? (base.toFloat.pow exponent.toFloat) with
    | some result => ensureInRange result "^"
    | none => do
      let base ← base.write
      let exponent ← exponent.write
      .error (.of (.domainError "^" (base ++ " ^ " ++ exponent ++ " has no finite real result")))

end Formula.Decimal
