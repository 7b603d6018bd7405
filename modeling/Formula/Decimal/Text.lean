import Formula.Decimal
import Formula.Stop
import Formula.Text.Blank

set_option autoImplicit false

namespace Formula.Decimal

inductive TextFault where
  | noDigits
  | notADigit
  | exponentTooLarge
  | exponentTooSmall
  | scaleTooLarge
deriving DecidableEq, Repr

def fitsWord (bits : Nat) (n : Int) : Bool :=
  decide (-(twoPow bits : Int) ≤ n) && decide (n < (twoPow bits : Int))

def readExponent (cs : List Char) : Except TextFault Int :=
  let (negative, digits) :=
    match cs with
    | '-' :: digits => (true, digits)
    | '+' :: digits => (false, digits)
    | digits => (false, digits)
  if cs = [] then .error .noDigits
  else if digits = [] || !digits.all Char.isDigit then .error .notADigit
  else
    let magnitude : Int := Digits.toNat digits
    let n := if negative then -magnitude else magnitude
    if fitsWord 127 n then .ok n
    else .error (if negative then .exponentTooSmall else .exponentTooLarge)

def readMagnitude (cs : List Char) : Except TextFault Nat :=
  let digits :=
    match cs with
    | '+' :: '+' :: _ => cs
    | '+' :: digits => digits
    | digits => digits
  if digits = [] then .error .noDigits
  else if digits.head? = some '_' then .error .notADigit
  else if digits.all (fun c => c.isDigit || c == '_') then
    .ok (Digits.toNat (digits.filter (· != '_')))
  else .error .notADigit

def readUnscaled (cs : List Char) : Except TextFault Int :=
  match cs with
  | '-' :: '+' :: _ => .error .notADigit
  | '-' :: digits => (readMagnitude digits).map fun n => -(n : Int)
  | digits => (readMagnitude digits).map fun n => (n : Int)

def splitPoint (cs : List Char) : List Char × Nat :=
  match cs.dropWhile (· != '.') with
  | [] => (cs, 0)
  | _ :: places =>
    (cs.takeWhile (· != '.') ++ places, (places.filter (· != '_')).length)

def isExponentMark (c : Char) : Bool := c == 'e' || c == 'E'

def read (cs : List Char) : Except TextFault Decimal := do
  let base := cs.takeWhile (!isExponentMark ·)
  let exponent ←
    match cs.dropWhile (!isExponentMark ·) with
    | [] => .ok 0
    | _ :: exponent => readExponent exponent
  if base = [] then .error .noDigits
  let (digits, places) := splitPoint base
  let scale := places - exponent
  if !fitsWord 63 scale then .error .scaleTooLarge
  let unscaled ← readUnscaled digits
  return ⟨unscaled, scale⟩

def ofText? (text : String) : Option Decimal :=
  (read (Text.trim text.toList)).toOption

def magnitudeText (magnitude : Nat) (scale : Int) : List Char :=
  let digits := Digits.ofNat magnitude
  if scale ≤ 0 then digits ++ List.replicate (-scale).toNat '0'
  else
    let places := scale.toNat
    if digits.length ≤ places then
      '0' :: '.' :: (List.replicate (places - digits.length) '0' ++ digits)
    else
      digits.take (digits.length - places) ++ '.' :: digits.drop (digits.length - places)

def textChars (d : Decimal) : List Char :=
  let n := d.normalized
  if n.unscaled = 0 then ['0']
  else if n.unscaled < 0 then '-' :: magnitudeText n.unscaled.natAbs n.scale
  else magnitudeText n.unscaled.natAbs n.scale

def text (d : Decimal) : String := String.ofList d.textChars

-- A text has fewer bytes than there are nonnegative words.
def textLimit : Nat := twoPow 63

def fitsText (d : Decimal) : Bool :=
  let n := d.normalized
  decide (Digits.count n.unscaled.natAbs + (-n.scale).toNat < textLimit)

def write {ε : Type} (d : Decimal) : Except (Stop ε) String :=
  if d.fitsText then .ok d.text else .error .panicked

end Formula.Decimal
