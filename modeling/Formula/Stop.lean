set_option autoImplicit false

namespace Formula

-- Why a computation ends without a value. Nothing handles a panic.
inductive Stop (ε : Type) where
  | failed (error : ε)
  | panicked
deriving DecidableEq, Repr

namespace Stop

def map {ε δ : Type} (f : ε → δ) : Stop ε → Stop δ
  | failed e => failed (f e)
  | panicked => panicked

end Stop

theorem bind_ok_iff {ε α β : Type} {first : Except ε α} {next : α → Except ε β} {b : β} :
    first >>= next = .ok b ↔ ∃ a, first = .ok a ∧ next a = .ok b := by
  cases first with
  | error e => exact ⟨nofun, fun ⟨_, ok, _⟩ => nomatch ok⟩
  | ok a => exact ⟨fun ok => ⟨a, rfl, ok⟩, fun ⟨_, same, ok⟩ => by cases same; exact ok⟩

theorem bind_error_iff {ε α β : Type} {first : Except ε α} {next : α → Except ε β} {e : ε} :
    first >>= next = .error e ↔ first = .error e ∨ ∃ a, first = .ok a ∧ next a = .error e := by
  constructor
  · intro stops
    cases first with
    | error e' =>
      cases stops
      exact .inl rfl
    | ok a => exact .inr ⟨a, rfl, stops⟩
  · rintro (rfl | ⟨a, rfl, stops⟩)
    · rfl
    · exact stops

theorem bind_ok {ε α β : Type} {first : Except ε α} {next : α → Except ε β} {b : β}
    (ok : first >>= next = .ok b) : ∃ a, first = .ok a ∧ next a = .ok b := bind_ok_iff.mp ok

end Formula
