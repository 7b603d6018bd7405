import Formula.Decimal

set_option autoImplicit false

namespace Formula.Decimal

def withPrecision (d : Decimal) (precision : Nat) : Decimal :=
  let digits := d.digits
  if precision < digits then
    let cut := digits - precision
    let longer := d.unscaled.natAbs / tenPow (cut - 1)
    let kept := longer / 10
    let rounded := if 5 ≤ longer % 10 then kept + 1 else kept
    ⟨d.unscaled.sign * rounded, d.scale - cut⟩
  else
    let added := precision - digits
    ⟨d.unscaled * tenPow added, d.scale + added⟩

inductive Rounding where
  | floor
  | ceiling
  | halfAwayFromZero
deriving DecidableEq, Repr

def Rounding.divide (mode : Rounding) (n : Int) (d : Nat) : Int :=
  match mode with
  | .floor => n.fdiv d
  | .ceiling => -((-n).fdiv d)
  | .halfAwayFromZero => n.sign * ((2 * n.natAbs + d) / (2 * d) : Nat)

def rescale (d : Decimal) (scale : Int) (mode : Rounding) : Decimal :=
  if d.isZero then ⟨0, scale⟩
  else if d.scale ≤ scale then ⟨d.unscaledAt scale, scale⟩
  else if d.order < -scale then
    match mode with
    | .floor => ⟨if d.unscaled < 0 then -1 else 0, scale⟩
    | .ceiling => ⟨if 0 < d.unscaled then 1 else 0, scale⟩
    | .halfAwayFromZero => ⟨0, scale⟩
  else ⟨mode.divide d.unscaled (tenPow (d.scale - scale).toNat), scale⟩

end Formula.Decimal
