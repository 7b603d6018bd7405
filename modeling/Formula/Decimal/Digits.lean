set_option autoImplicit false

namespace Formula

def tenPow (k : Nat) : Nat := Nat.pow 10 k

def twoPow (k : Nat) : Nat := Nat.pow 2 k

namespace Digits

def block (k : Nat) : Nat := tenPow (twoPow k)

def level (n : Nat) : Nat := Nat.log2 (Nat.log2 n / 3 + 1) + 1

def countFrom (n : Nat) : Nat → Nat → Nat
  | 0, k => k + 1
  | fuel + 1, k => if n < tenPow (k + 1) then k + 1 else countFrom n fuel (k + 1)

-- How many digits `n` is written with; zero has one. The binary digits give a first guess, because
-- `10 ^ 301029` is less than `2 ^ 1000000`; below a million binary digits it is at most two short.
def count (n : Nat) : Nat := countFrom n (Nat.log2 n + 1) (Nat.log2 n * 301029 / 1000000)

def stripBelow : Nat → Nat → Nat × Nat
  | 0, n => if n % 10 = 0 then (n / 10, 1) else (n, 0)
  | k + 1, n =>
    if n % block (k + 1) = 0 then
      let stripped := stripBelow k (n / block (k + 1))
      (stripped.1, stripped.2 + twoPow (k + 1))
    else stripBelow k n

def strip (n : Nat) : Nat × Nat := stripBelow (level n) n

def char (d : Nat) : Char := Char.ofNat (48 + d)

def value (c : Char) : Nat := c.toNat - 48

def padded : Nat → Nat → List Char
  | 0, n => [char (n % 10)]
  | k + 1, n => padded k (n / block k) ++ padded k (n % block k)

def ofNat (n : Nat) : List Char :=
  match (padded (Nat.log2 (count n) + 1) n).dropWhile (· == '0') with
  | [] => ['0']
  | digits => digits

def toNat (digits : List Char) : Nat :=
  digits.foldl (fun n c => 10 * n + value c) 0

end Digits

end Formula
