import Formula.Decimal

set_option autoImplicit false

namespace Formula.Decimal

def quotientDigits : Nat := 100

def leadingShift (num den : Nat) : Nat :=
  let shift := Digits.count den - Digits.count num
  if num * tenPow shift < den then shift + 1 else shift

structure Quotient where
  digits : Nat
  places : Nat
  remainder : Nat
deriving DecidableEq, Repr

def Quotient.develop (den : Nat) : Nat → Quotient → Quotient
  | 0, q => q
  | steps + 1, q =>
    if q.remainder = 0 then q
    else
      develop den steps
        ⟨10 * q.digits + 10 * q.remainder / den, q.places + 1, 10 * q.remainder % den⟩

def Quotient.rounded (den : Nat) (q : Quotient) : Nat :=
  if 5 ≤ 10 * q.remainder / den then q.digits + 1 else q.digits

def divideMagnitudes (num den : Nat) : Nat × Nat :=
  let shift := leadingShift num den
  let shifted := num * tenPow shift
  let whole := shifted / den
  let steps := quotientDigits - Digits.count whole
  let q := Quotient.develop den steps ⟨whole, shift, shifted % den⟩
  (q.rounded den, q.places)

-- The quotient by a nonzero number. A zero dividend, or a divisor recognised as one, leaves the
-- dividend in its form, and equal unscaled integers leave a power of ten.
def div (a b : Decimal) : Decimal :=
  if a.isZero || b.isUnit then a
  else if a.unscaled = b.unscaled then ⟨1, a.scale - b.scale⟩
  else
    let quotient := divideMagnitudes a.unscaled.natAbs b.unscaled.natAbs
    ⟨a.unscaled.sign * b.unscaled.sign * quotient.1, a.scale - b.scale + quotient.2⟩

instance : Div Decimal := ⟨div⟩

end Formula.Decimal
