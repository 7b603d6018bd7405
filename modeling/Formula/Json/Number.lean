import Formula.Decimal.Float

set_option autoImplicit false

namespace Formula.Json

structure Literal where
  negative : Bool
  whole : List Char
  places : Option (List Char)
  exponent : Option Int

def maxWord : Nat := twoPow 64 - 1

structure Significand where
  word : Nat
  exponent : Int

def Significand.takeWhole : Significand → Bool → List Char → Significand
  | s, _, [] => s
  | s, full, c :: cs =>
    let word := 10 * s.word + Digits.value c
    if full || maxWord < word then takeWhole ⟨s.word, s.exponent + 1⟩ true cs
    else takeWhole ⟨word, s.exponent⟩ false cs

def Significand.takePlaces : Significand → List Char → Significand
  | s, [] => s
  | s, c :: cs =>
    let word := 10 * s.word + Digits.value c
    if maxWord < word then s else takePlaces ⟨word, s.exponent - 1⟩ cs

def tenFloat (exponent : Nat) : Float := (Binary.ofNat (tenPow exponent)).toFloat

def maxTen : Nat := 308

-- Divides by a power of ten, in steps that stay within the doubles; nothing is left after `fuel`
-- steps of the largest one.
def shrink : Nat → Float → Nat → Float
  | 0, x, _ => x * 0
  | fuel + 1, x, exponent =>
    if exponent ≤ maxTen then x / tenFloat exponent
    else shrink fuel (x / tenFloat maxTen) (exponent - maxTen)

def Significand.toFloat? (s : Significand) : Option Float :=
  let x := (Binary.ofNat s.word).toFloat
  if s.word = 0 then some 0
  else if s.exponent < 0 then some (shrink 3 x s.exponent.natAbs)
  else if s.exponent ≤ maxTen then
    let product := x * tenFloat s.exponent.natAbs
    if product.isFinite then some product else none
  else none

def ofMagnitude (x : Float) : Decimal :=
  let magnitude := Binary.ofFloat x
  if magnitude.significand = 0 then ⟨0, 1⟩
  else
    let d := Double.shortest .even magnitude
    if d.scale ≤ 0 ∧ d.order ≤ 16 then ⟨d.unscaledAt 1, 1⟩ else d

def Literal.value? (l : Literal) : Option Decimal :=
  let whole := Digits.toNat l.whole
  let limit := if l.negative then twoPow 63 else maxWord
  if l.places.isNone && l.exponent.isNone && decide (whole ≤ limit) &&
      !(l.negative && whole == 0) then
    some (.ofInt (if l.negative then -whole else whole))
  else
    let s := Significand.takeWhole ⟨0, 0⟩ false l.whole
    let s := s.takePlaces (l.places.getD [])
    let s : Significand := ⟨s.word, s.exponent + l.exponent.getD 0⟩
    s.toFloat?.map fun x =>
      let d := ofMagnitude x
      if l.negative then d.neg else d

end Formula.Json
