set_option autoImplicit false

namespace Formula.Text

def charsBefore : List Char → List Char → Bool
  | _, [] => false
  | [], _ :: _ => true
  | a :: as, b :: bs =>
    if a.toNat < b.toNat then true
    else if b.toNat < a.toNat then false
    else charsBefore as bs

def before (a b : String) : Bool := charsBefore a.toList b.toList

theorem chars_before_trans (as bs cs : List Char) (first : charsBefore as bs = true)
    (second : charsBefore bs cs = true) : charsBefore as cs = true := by
  induction as generalizing bs cs with
  | nil =>
    cases cs with
    | nil => cases bs <;> simp [charsBefore] at second
    | cons c cs => rfl
  | cons a as ih =>
    cases bs with
    | nil => simp [charsBefore] at first
    | cons b bs =>
      cases cs with
      | nil => simp [charsBefore] at second
      | cons c cs =>
        simp only [charsBefore] at first second ⊢
        by_cases ab : a.toNat < b.toNat <;> by_cases ba : b.toNat < a.toNat <;>
          by_cases bc : b.toNat < c.toNat <;> by_cases cb : c.toNat < b.toNat <;>
          simp only [ab, ba, bc, cb, if_true, if_false] at first second <;>
          first
          | omega
          | contradiction
          | exact if_pos (by omega)
          | (rw [if_neg (by omega), if_neg (by omega)]
             exact ih bs cs first second)

theorem before_or_before (as bs : List Char) (different : as ≠ bs)
    (notBefore : charsBefore as bs = false) : charsBefore bs as = true := by
  induction as generalizing bs with
  | nil =>
    cases bs with
    | nil => exact absurd rfl different
    | cons b bs => simp [charsBefore] at notBefore
  | cons a as ih =>
    cases bs with
    | nil => rfl
    | cons b bs =>
      simp only [charsBefore] at notBefore ⊢
      by_cases ab : a.toNat < b.toNat
      · simp [ab] at notBefore
      · by_cases ba : b.toNat < a.toNat
        · simp [ba]
        · simp only [ab, ba, if_false] at notBefore ⊢
          have same : a = b := Char.toNat_inj.mp (by omega)
          exact ih bs (fun tail => different (by rw [same, tail])) notBefore

theorem not_before_self (as : List Char) : charsBefore as as = false := by
  induction as with
  | nil => rfl
  | cons a as ih => simp [charsBefore, ih]

end Formula.Text
