import Formula.Double.Nearest

set_option autoImplicit false

namespace Formula.Binary

def logUnit : Nat := tenPow 60

def logPlaces : Nat := 96

def ceilDiv (num den : Nat) : Nat := (num + den - 1) / den

structure Log where
  whole : Nat
  mantissa : Nat
deriving DecidableEq, Repr

def Log.next (l : Log) : Log :=
  let square := ceilDiv (l.mantissa * l.mantissa) logUnit
  if square < 10 * logUnit then ⟨2 * l.whole, square⟩
  else ⟨2 * l.whole + 1, ceilDiv square 10⟩

def Log.develop : Nat → Log → Log
  | 0, l => l
  | steps + 1, l => develop steps l.next

def Log.start (num den : Nat) : Log :=
  let exponent := Digits.count (num / den) - 1
  ⟨exponent, ceilDiv (num * logUnit) (den * tenPow exponent)⟩

-- The developed logarithm of a number that is at least one, rounded. What the last digit leaves
-- over is between nothing and one unit of it; a half stands for it, unless it is nothing.
def developedLog10 (b : Binary) : Binary :=
  let l := Log.develop logPlaces (Log.start b.ratio.1 b.ratio.2)
  if l.mantissa = logUnit then nearest l.whole (twoPow logPlaces)
  else nearest (2 * l.whole + 1) (twoPow (logPlaces + 1))

def agreedDigits : Nat := 48

def agrees (a b : Binary) : Bool :=
  let left := a.ratio.1 * b.ratio.2
  let right := b.ratio.1 * a.ratio.2
  decide ((left - right + (right - left)) * twoPow agreedDigits ≤ right)

def log10 (b : Binary) : Binary :=
  let developed := b.developedLog10
  let native := ofFloat b.toFloat.log10
  if native.agrees developed then native else developed

end Formula.Binary
