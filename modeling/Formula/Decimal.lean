import Formula.Decimal.Digits

set_option autoImplicit false

namespace Formula

structure Decimal where
  unscaled : Int
  scale : Int
deriving DecidableEq, Repr, Inhabited

namespace Decimal

def zero : Decimal := ⟨0, 0⟩

def one : Decimal := ⟨1, 0⟩

def ofInt (n : Int) : Decimal := ⟨n, 0⟩

def powerOfTen (exponent : Int) : Decimal := ⟨1, -exponent⟩

def isZero (d : Decimal) : Bool := d.unscaled == 0

def isNegative (d : Decimal) : Bool := d.unscaled < 0

def isPositive (d : Decimal) : Bool := 0 < d.unscaled

def digits (d : Decimal) : Nat := Digits.count d.unscaled.natAbs

def neg (d : Decimal) : Decimal := ⟨-d.unscaled, d.scale⟩

def abs (d : Decimal) : Decimal := ⟨d.unscaled.natAbs, d.scale⟩

def normalized (d : Decimal) : Decimal :=
  if d.unscaled = 0 then zero
  else
    let stripped := Digits.strip d.unscaled.natAbs
    ⟨d.unscaled.sign * stripped.1, d.scale - stripped.2⟩

def sameNumber (a b : Decimal) : Bool := a.normalized == b.normalized

def unscaledAt (d : Decimal) (scale : Int) : Int :=
  d.unscaled * tenPow (scale - d.scale).toNat

-- One more than the exponent of the leading digit: a nonzero `d` has its magnitude in `[10 ^ (order
-- - 1), 10 ^ order)`.
def order (d : Decimal) : Int := d.digits - d.scale

def compareMagnitudes (a b : Decimal) : Ordering :=
  if a.order < b.order then .lt
  else if b.order < a.order then .gt
  else
    let scale := if a.scale < b.scale then b.scale else a.scale
    compare (a.unscaledAt scale).natAbs (b.unscaledAt scale).natAbs

def compareNumbers (a b : Decimal) : Ordering :=
  match compare a.unscaled.sign b.unscaled.sign with
  | .eq =>
    if a.unscaled = 0 then .eq
    else if a.unscaled < 0 then b.compareMagnitudes a
    else a.compareMagnitudes b
  | different => different

def less (a b : Decimal) : Bool := a.compareNumbers b == .lt

def lessOrEqual (a b : Decimal) : Bool := a.compareNumbers b != .gt

def commonScale (a b : Decimal) : Int := if a.scale < b.scale then b.scale else a.scale

def add (a b : Decimal) : Decimal :=
  let scale := a.commonScale b
  ⟨a.unscaledAt scale + b.unscaledAt scale, scale⟩

def sub (a b : Decimal) : Decimal :=
  if b.isZero then a
  else if a.isZero then b.neg
  else
    let scale := a.commonScale b
    ⟨a.unscaledAt scale - b.unscaledAt scale, scale⟩

def unitScaleLimit : Int := 38

def isUnit (d : Decimal) : Bool :=
  decide (0 ≤ d.scale) && decide (d.scale ≤ unitScaleLimit) &&
    d.unscaled == (tenPow d.scale.toNat : Int)

-- The product: scales add, but a one leaves the other operand in its form.
def mul (a b : Decimal) : Decimal :=
  if a.isUnit then b
  else if b.isUnit then a
  else ⟨a.unscaled * b.unscaled, a.scale + b.scale⟩

def rem (a b : Decimal) : Decimal :=
  let scale := a.commonScale b
  ⟨Int.tmod (a.unscaledAt scale) (b.unscaledAt scale), scale⟩

def isInteger (d : Decimal) : Bool := d.normalized.scale ≤ 0

def isOdd (d : Decimal) : Bool :=
  d.normalized.scale == 0 && d.normalized.unscaled % 2 != 0

-- The integer that the number is, if its magnitude is below `10 ^ 40`. The bound is far beyond
-- every machine word, and keeps a large negative scale from being written out.
def toInt? (d : Decimal) : Option Int :=
  let n := d.normalized
  if n.scale ≤ 0 ∧ n.order ≤ 40 then some (n.unscaledAt 0) else none

instance : Neg Decimal := ⟨neg⟩
instance : Add Decimal := ⟨add⟩
instance : Sub Decimal := ⟨sub⟩
instance : Mul Decimal := ⟨mul⟩
instance : Mod Decimal := ⟨rem⟩

end Decimal

end Formula
