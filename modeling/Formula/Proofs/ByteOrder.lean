import Formula.Text.Order
import Mathlib.Tactic.ByContra
import Mathlib.Tactic.SplitIfs

set_option autoImplicit false

namespace Formula.Text

def bytes (s : String) : List UInt8 := s.toUTF8.data.toList

def encode (cs : List Char) : List UInt8 := cs.flatMap String.utf8EncodeChar

theorem bytes_eq (s : String) : bytes s = encode s.toList := by
  have encoded : s.toUTF8 = s.toList.utf8Encode := String.utf8Encode_toList.symm
  rw [bytes, encoded, List.utf8Encode, encode, List.data_toByteArray]

theorem byte_lt {m n : Nat} (hm : m < 256) (hn : n < 256) :
    UInt8.ofNat m < UInt8.ofNat n ↔ m < n := by
  rw [UInt8.lt_iff_toNat_lt, UInt8.toNat_ofNat_of_lt' hm, UInt8.toNat_ofNat_of_lt' hn]

theorem byte_eq {m n : Nat} (hm : m < 256) (hn : n < 256) :
    UInt8.ofNat m = UInt8.ofNat n ↔ m = n := by
  rw [← UInt8.toNat_inj, UInt8.toNat_ofNat_of_lt' hm, UInt8.toNat_ofNat_of_lt' hn]

-- The bytes of a character in the longest form are the digits of its number in base 64. The first
-- digit that differs decides.
theorem longest_lt {m n : Nat} (less : m < n) (bounded : n < 1114112) (rest : Prop) :
    m / 262144 % 8 + 240 < n / 262144 % 8 + 240 ∨
      m / 262144 % 8 + 240 = n / 262144 % 8 + 240 ∧
        (m / 4096 % 64 + 128 < n / 4096 % 64 + 128 ∨
          m / 4096 % 64 + 128 = n / 4096 % 64 + 128 ∧
            (m / 64 % 64 + 128 < n / 64 % 64 + 128 ∨
              m / 64 % 64 + 128 = n / 64 % 64 + 128 ∧
                (m % 64 + 128 < n % 64 + 128 ∨ m % 64 + 128 = n % 64 + 128 ∧ rest))) := by
  by_cases first : m / 262144 = n / 262144
  · refine .inr ⟨by rw [first], ?_⟩
    by_cases second : m / 4096 = n / 4096
    · refine .inr ⟨by rw [second], ?_⟩
      by_cases third : m / 64 = n / 64
      · exact .inr ⟨by rw [third], .inl (by omega)⟩
      · exact .inl (by omega)
    · exact .inl (by omega)
  · exact .inl (by omega)

theorem char_bounded (c : Char) : c.toNat < 1114112 := by
  have valid := c.valid
  simp only [UInt32.isValidChar, Nat.isValidChar] at valid
  change c.val.toNat < 1114112
  omega

theorem encode_char_lt {c d : Char} (less : c.toNat < d.toNat) (xs ys : List UInt8) :
    String.utf8EncodeChar c ++ xs < String.utf8EncodeChar d ++ ys := by
  have bounded := char_bounded d
  change c.val.toNat < d.val.toNat at less
  change d.val.toNat < 1114112 at bounded
  unfold String.utf8EncodeChar
  generalize c.val.toNat = m at *
  generalize d.val.toNat = n at *
  dsimp only
  split_ifs <;>
    (simp only [List.cons_append, List.nil_append, List.cons_lt_cons_iff]
     simp (disch := omega) only [byte_lt, byte_eq]
     first
     | omega
     | exact longest_lt less bounded _)

theorem encode_char_ne_nil (c : Char) : String.utf8EncodeChar c ≠ [] := by
  intro empty
  have length := String.length_utf8EncodeChar c
  rw [empty] at length
  exact absurd length (Nat.ne_of_lt c.utf8Size_pos)

theorem encode_lt_of_before (as bs : List Char) (before : charsBefore as bs = true) :
    encode as < encode bs := by
  induction as generalizing bs with
  | nil =>
    cases bs with
    | nil => cases before
    | cons b bs =>
      rw [encode, encode, List.flatMap_nil, List.flatMap_cons]
      obtain ⟨byte, more, written⟩ := List.exists_cons_of_ne_nil (encode_char_ne_nil b)
      rw [written]
      exact List.nil_lt_cons byte _
  | cons a as ih =>
    cases bs with
    | nil => cases before
    | cons b bs =>
      simp only [charsBefore] at before
      simp only [encode, List.flatMap_cons]
      split at before
      · rename_i less
        exact encode_char_lt less _ _
      · split at before
        · cases before
        · have same : a = b := Char.toNat_inj.mp (by omega)
          rw [same]
          exact List.append_left_lt (ih bs before)

theorem before_iff_bytes (a b : String) : before a b = true ↔ bytes a < bytes b := by
  rw [bytes_eq, bytes_eq]
  constructor
  · exact encode_lt_of_before a.toList b.toList
  · intro less
    by_contra other
    by_cases same : a.toList = b.toList
    · rw [same] at less
      exact List.lt_irrefl _ less
    · have reverse := before_or_before a.toList b.toList same (Bool.eq_false_iff.mpr other)
      exact List.lt_asymm less (encode_lt_of_before _ _ reverse)

end Formula.Text
