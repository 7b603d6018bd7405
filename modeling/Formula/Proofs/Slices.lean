import Formula.Proofs.CallContract
import Formula.Proofs.EqualNumbers
import Formula.Proofs.HostErrors
import Formula.Proofs.RoundedPlaces
import Formula.Proofs.DefaultFunctions

set_option autoImplicit false

namespace Formula

namespace Catalogue

variable {s : String} {a b : Decimal} {i j : Nat}

theorem slice_bounds_ok {args : List Value}
    (found : (sliceBounds args : Result (Nat × Nat)) = .ok (i, j)) :
    ∃ s, (textArg "slice" args 0 : Result String) = .ok s ∧
      (charIndex args 1 "start" : Result Nat) = .ok i ∧
      (charIndex args 2 "end" : Result Nat) = .ok j ∧ i ≤ j ∧ j ≤ s.length := by
  obtain ⟨s, text, found⟩ := bind_ok found
  obtain ⟨m, start, found⟩ := bind_ok found
  obtain ⟨n, stop, found⟩ := bind_ok found
  by_cases reversed : n < m
  · rw [if_pos reversed] at found
    cases found
  · by_cases past : s.length < n
    · rw [if_neg reversed, if_pos past] at found
      cases found
    · rw [if_neg reversed, if_neg past] at found
      cases found
      exact ⟨s, text, start, stop, not_lt.mp reversed, not_lt.mp past⟩

def cut (s : String) (i j : Nat) : String := String.ofList ((s.toList.drop i).take (j - i))

@[simp] theorem minus_of_le {n k : Nat} (ordered : k ≤ n) :
    (Computation.minus n k : Result Nat) = .ok (n - k) := if_pos ordered

theorem slice_computes (s : String) (a b : Decimal) :
    functions[21].compute [.text s, .number a, .number b] =
      (do
        let text ← textArg "slice" [.text s, .number a, .number b] 0
        let (start, stop) ← sliceBounds [.text s, .number a, .number b]
        let size ← Computation.minus stop start
        pure (.text (String.ofList ((text.toList.drop start).take size))) : Result Value) := rfl

theorem slice_computed (found :
    (sliceBounds [.text s, .number a, .number b] : Result (Nat × Nat)) = .ok (i, j)) :
    functions[21].compute [.text s, .number a, .number b] = .ok (.text (cut s i j)) := by
  obtain ⟨-, -, -, -, ordered, -⟩ := slice_bounds_ok found
  have text : (textArg "slice" [.text s, .number a, .number b] 0 : Result String) = .ok s := rfl
  rw [slice_computes, text, found]
  dsimp only [bind, Except.bind]
  rw [minus_of_le ordered]
  rfl

end Catalogue

namespace Decimal

end Decimal

namespace Expr

variable {env : Environment} {s : String} {a b : Decimal} {i j : Nat} {text first last : Expr}

section

variable (defaults : env.HasDefaults) (value : (text.eval env).outcome = .ok (.text s))
  (start : (first.eval env).outcome = .ok (.number a))
  (stop : (last.eval env).outcome = .ok (.number b)) (span : Span)

include defaults value start stop

end

end Expr

namespace Expr

variable {env : Environment} {s : String} {text : Expr}

end Expr

end Formula
