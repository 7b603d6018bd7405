set_option autoImplicit false

namespace Formula

inductive Arity where
  | exact (count : Nat)
  | variadic (least : Nat) (most : Option Nat)
deriving DecidableEq, Repr, Inhabited

namespace Arity

def accepts : Arity → Nat → Bool
  | .exact n, count => n == count
  | .variadic least none, count => decide (least ≤ count)
  | .variadic least (some most), count => decide (least ≤ count) && decide (count ≤ most)

def isVariadic : Arity → Bool
  | .exact _ => false
  | .variadic _ _ => true

def counted (n : Nat) : String :=
  toString n ++ if n = 1 then " argument" else " arguments"

def describe : Arity → String
  | .exact n => counted n
  | .variadic least (some most) =>
    if least = most then counted least
    else toString least ++ "..=" ++ toString most ++ " arguments"
  | .variadic 0 none => "any number of arguments"
  | .variadic least none => "at least " ++ counted least

end Arity

end Formula
