import Formula.Decimal
import Formula.Stop

set_option autoImplicit false

namespace Formula.Decimal

def maxScale : Int := 100000

def maxDigits : Nat := 250000

-- The 64-bit word that has no opposite.
def lowestScale : Int := -9223372036854775808

def scaleMagnitude (scale : Int) : Option Int :=
  if scale = lowestScale then none else some scale.natAbs

def inRange (d : Decimal) : Option Bool :=
  (scaleMagnitude d.scale).map fun magnitude =>
    decide (magnitude ≤ maxScale) && decide (d.digits ≤ maxDigits)

def byRange {ε α : Type} (d : Decimal) (inside outside : Except (Stop ε) α) :
    Except (Stop ε) α :=
  match d.inRange with
  | some true => inside
  | some false => outside
  | none => .error .panicked

theorem by_range_in {ε α : Type} {d : Decimal} (range : d.inRange = some true)
    (inside outside : Except (Stop ε) α) : d.byRange inside outside = inside := by
  rw [byRange, range]

end Formula.Decimal
