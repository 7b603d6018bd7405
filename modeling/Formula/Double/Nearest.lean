import Formula.Decimal.Digits

set_option autoImplicit false

namespace Formula

structure Binary where
  significand : Nat
  exponent : Int
deriving DecidableEq, Repr, Inhabited

namespace Binary

def precision : Nat := 53

def leastExponent : Int := -1074

def greatestExponent : Int := 971

def nearestInteger (num den : Nat) : Nat :=
  let floor := num / den
  let twice := 2 * (num % den)
  if twice < den || (twice == den && floor % 2 == 0) then floor else floor + 1

def scaled (num den : Nat) (exponent : Int) : Nat × Nat :=
  (num * twoPow (-exponent).toNat, den * twoPow exponent.toNat)

def exponentFor (num den : Nat) : Int :=
  let guess : Int := (Nat.log2 num : Int) - Nat.log2 den - (precision - 1)
  let (n, d) := scaled num den guess
  let exponent := if n < d * twoPow (precision - 1) then guess - 1 else guess
  if exponent < leastExponent then leastExponent else exponent

def nearest (num den : Nat) : Binary :=
  let exponent := exponentFor num den
  let (n, d) := scaled num den exponent
  ⟨nearestInteger n d, exponent⟩

def ratio (b : Binary) : Nat × Nat :=
  (b.significand * twoPow b.exponent.toNat, twoPow (-b.exponent).toNat)

def ofNat (n : Nat) : Binary := nearest n 1

def mul (a b : Binary) : Binary :=
  nearest (a.ratio.1 * b.ratio.1) (a.ratio.2 * b.ratio.2)

def add (a b : Binary) : Binary :=
  nearest (a.ratio.1 * b.ratio.2 + b.ratio.1 * a.ratio.2) (a.ratio.2 * b.ratio.2)

def less (a b : Binary) : Bool :=
  decide (a.ratio.1 * b.ratio.2 < b.ratio.1 * a.ratio.2)

def overflows (b : Binary) : Bool :=
  decide (twoPow precision * twoPow greatestExponent.toNat * b.ratio.2 ≤ b.ratio.1)

-- The bits of a rounded number: the exponent field follows the leading digit, which is not stored;
-- a significand of 54 digits carries into it.
def bits (b : Binary) : UInt64 :=
  if b.overflows then 0x7FF0000000000000
  else if b.significand < twoPow (precision - 1) then UInt64.ofNat b.significand
  else
    UInt64.ofNat
      ((b.exponent - leastExponent).toNat * twoPow (precision - 1) + b.significand)

def toFloat (b : Binary) : Float := Float.ofBits b.bits

def ofFloat (x : Float) : Binary :=
  let bits := x.toBits.toNat
  let field := bits / twoPow 52 % twoPow 11
  let fraction := bits % twoPow 52
  if field = 0 then ⟨fraction, leastExponent⟩
  else ⟨twoPow 52 + fraction, (field : Int) - 1 + leastExponent⟩

end Binary

end Formula
