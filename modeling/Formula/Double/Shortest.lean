import Formula.Double.Nearest
import Formula.Decimal

set_option autoImplicit false

namespace Formula.Double

structure Interval where
  low : Nat
  value : Nat
  high : Nat
  den : Nat
  closed : Bool
deriving Repr

-- What rounds to a given number. Below a power of two the neighbours are half as far.
def Interval.of (b : Binary) : Interval :=
  let power := twoPow b.exponent.toNat
  let narrow := b.significand == twoPow 52 && decide (Binary.leastExponent < b.exponent)
  ⟨(4 * b.significand - if narrow then 1 else 2) * power, 4 * b.significand * power,
    (4 * b.significand + 2) * power, 4 * twoPow (-b.exponent).toNat, b.significand % 2 == 0⟩

def Interval.contains (i : Interval) (num den : Nat) : Bool :=
  if i.closed then
    decide (i.low * den ≤ num * i.den) && decide (num * i.den ≤ i.high * den)
  else decide (i.low * den < num * i.den) && decide (num * i.den < i.high * den)

inductive Tie where
  | up
  | even
deriving DecidableEq, Repr

def leadingExponent (num den : Nat) : Int :=
  let guess : Int := (Digits.count num : Int) - Digits.count den
  if num * tenPow (-guess).toNat < den * tenPow guess.toNat then guess - 1 else guess

def onGrid (i : Interval) (tie : Tie) (place : Int) : Option Nat :=
  let unit := tenPow place.toNat
  let parts := tenPow (-place).toNat
  let num := i.value * parts
  let den := i.den * unit
  let floor := num / den
  let inside (n : Nat) : Bool := i.contains (n * unit) parts
  let twice := 2 * (num % den)
  let nearest :=
    if twice < den then floor
    else if den < twice then floor + 1
    else match tie with
      | .up => floor + 1
      | .even => if floor % 2 = 0 then floor else floor + 1
  let other := if nearest = floor then floor + 1 else floor
  if inside nearest then some nearest
  else if inside other then some other
  else none

def searchGrid (i : Interval) (tie : Tie) : Nat → Int → Decimal
  | 0, place => ⟨(onGrid i tie place).getD 0, -place⟩
  | steps + 1, place =>
    match onGrid i tie place with
    | some n => ⟨n, -place⟩
    | none => searchGrid i tie steps (place - 1)

def shortest (tie : Tie) (b : Binary) : Decimal :=
  let i := Interval.of b
  (searchGrid i tie 16 (leadingExponent i.value i.den)).normalized

end Formula.Double
