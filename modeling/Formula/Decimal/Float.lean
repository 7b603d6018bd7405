import Formula.Decimal
import Formula.Double.Nearest
import Formula.Double.Shortest

set_option autoImplicit false

namespace Formula.Decimal

def nearestFloat (num : Int) (den : Nat) : Float :=
  if num = 0 then 0
  else
    let magnitude := (Binary.nearest num.natAbs den).toFloat
    if num < 0 then -magnitude else magnitude

def floatPower (x : Float) (n : Nat) : Float :=
  go (Nat.log2 n + 1) x n 1
where
  go : Nat → Float → Nat → Float → Float
    | 0, _, _, result => result
    | steps + 1, x, n, result =>
      let result := if n % 2 = 1 then result * x else result
      if n / 2 = 0 then result else go steps (x * x) (n / 2) result

def bitCount (n : Nat) : Nat := if n = 0 then 0 else Nat.log2 n + 1

def approximateDigits (n : Nat) : Nat := (bitCount n + 1) * 3010299956639812 / 10000000000000000

def droppedBlocks (n : Nat) : Nat := (approximateDigits n - 25) / 19

-- The double of a number. An integer at scale zero is rounded as it is. Otherwise digits beyond
-- about 25 are dropped; the rest is rounded with its scale if that is positive, and else rounded
-- and multiplied by a power of ten in doubles.
def toFloat (d : Decimal) : Float :=
  if d.unscaled = 0 then 0
  else if d.scale = 0 then nearestFloat d.unscaled 1
  else
    let dropped := 19 * droppedBlocks d.unscaled.natAbs
    let kept := d.unscaled.sign * (d.unscaled.natAbs / tenPow dropped)
    let scale := d.scale - dropped
    if fitsExponent scale then
      if 0 < scale then nearestFloat kept (tenPow scale.toNat)
      else nearestFloat kept 1 * floatPower 10 (-scale).toNat
    else if d.unscaled < 0 then -(1.0 / 0.0) else 1.0 / 0.0
where
  fitsExponent (scale : Int) : Bool := decide (-2147483647 ≤ scale) && decide (scale ≤ 2147483647)

def ofFloat? (x : Float) : Option Decimal :=
  if !x.isFinite then none
  else
    let magnitude := Binary.ofFloat x
    if magnitude.significand = 0 then some zero
    else
      let d := Double.shortest .up magnitude
      let d := if d.scale < 0 then ⟨d.unscaledAt 0, 0⟩ else d
      some (if x < 0 then d.neg else d)

end Formula.Decimal
