import Formula.Text.Quoted
import Formula.Proofs.ByteOrder
import Formula.Proofs.Numeral
import Mathlib.Algebra.Group.Nat.Defs
import Mathlib.Tactic.SplitIfs

set_option autoImplicit false

namespace Formula.Text

def hexValue (c : Char) : Nat := if c.toNat < 58 then c.toNat - 48 else c.toNat - 87

def hexNumber (digits : List Char) : Nat := digits.foldl (fun n c => 16 * n + hexValue c) 0

theorem hex_digit {digit : Nat} (below : digit < 16) :
    hexValue (Char.ofNat (if digit < 10 then 48 + digit else 87 + digit)) = digit ∧
      Char.ofNat (if digit < 10 then 48 + digit else 87 + digit) ≠ '\x7d' := by
  have all : ∀ digit < 16,
      hexValue (Char.ofNat (if digit < 10 then 48 + digit else 87 + digit)) = digit ∧
        Char.ofNat (if digit < 10 then 48 + digit else 87 + digit) ≠ '\x7d' := by
    decide
  exact all digit below

theorem hex_number_digits {fuel n : Nat} (below : n < 16 ^ fuel) :
    hexNumber (hexDigits fuel n) = n := by
  induction fuel generalizing n with
  | zero =>
    rw [Nat.lt_one_iff.mp below]
    rfl
  | succ fuel ih =>
    have value := (hex_digit (Nat.mod_lt n (show 0 < 16 by decide))).1
    rw [hexDigits]
    by_cases single : n < 16
    · rw [if_pos single, hexNumber, List.foldl_cons, List.foldl_nil, value, Nat.mod_eq_of_lt single]
      omega
    · have before : hexNumber (hexDigits fuel (n / 16)) = n / 16 := by
        apply ih
        rw [Nat.pow_succ] at below
        omega
      rw [hexNumber] at before
      rw [if_neg single, hexNumber, List.foldl_append, before, List.foldl_cons, List.foldl_nil,
        value]
      omega

theorem hex_digits_open {fuel n : Nat} : ∀ c ∈ hexDigits fuel n, c ≠ '\x7d' := by
  induction fuel generalizing n with
  | zero => nofun
  | succ fuel ih =>
    have inside := (hex_digit (Nat.mod_lt n (show 0 < 16 by decide))).2
    intro c member
    rw [hexDigits] at member
    by_cases single : n < 16
    · rw [if_pos single, List.mem_singleton] at member
      rwa [member]
    · rw [if_neg single, List.mem_append, List.mem_singleton] at member
      rcases member with early | last
      · exact ih c early
      · rwa [last]

def escaped : List Char → Option (Char × List Char)
  | '0' :: rest => some ('\x00', rest)
  | 't' :: rest => some ('\t', rest)
  | 'r' :: rest => some ('\r', rest)
  | 'n' :: rest => some ('\n', rest)
  | 'u' :: '\x7b' :: rest =>
    some (Char.ofNat (hexNumber (rest.takeWhile (· != '\x7d'))),
      (rest.dropWhile (· != '\x7d')).tail)
  | c :: rest => some (c, rest)
  | [] => none

def unescape : List Char → Option (Char × List Char)
  | [] => none
  | c :: rest => if c = '\\' then escaped rest else some (c, rest)

theorem unescape_numbered (c : Char) (rest : List Char) :
    unescape (numbered c ++ rest) = some (c, rest) := by
  have below : c.toNat < 16 ^ 6 := Nat.lt_trans (char_bounded c) (by decide)
  have open_ : ∀ d ∈ hexDigits 6 c.toNat, (d != '\x7d') = true :=
    fun d member => bne_iff_ne.mpr (hex_digits_open d member)
  have stop : ∀ d ∈ ('\x7d' :: rest).head?, (d != '\x7d') = false := by
    rintro _ ⟨⟩
    rfl
  obtain ⟨digits, behind⟩ := take_drop_exact open_ stop
  have form : numbered c ++ rest =
      '\\' :: 'u' :: '\x7b' :: (hexDigits 6 c.toNat ++ '\x7d' :: rest) := by
    simp [numbered]
  rw [form, unescape, if_pos rfl, escaped, digits, behind, hex_number_digits below,
    Char.ofNat_toNat, List.tail_cons]

theorem unescape_escape (c : Char) (rest : List Char) :
    unescape (escape c ++ rest) = some (c, rest) := by
  rw [escape]
  split_ifs with null tab ret line quote slash number
  · rw [← Char.ofNat_toNat c, null]
    rfl
  · rw [tab]
    rfl
  · rw [ret]
    rfl
  · rw [line]
    rfl
  · rw [quote]
    rfl
  · rw [slash]
    rfl
  · exact unescape_numbered c rest
  · exact if_neg slash

-- No escape begins with a quote, so the first one closes the text.
theorem escapes_prefix {cs cs' rest rest' : List Char}
    (same : cs.flatMap escape ++ '"' :: rest = cs'.flatMap escape ++ '"' :: rest') :
    cs = cs' ∧ rest = rest' := by
  have closed {c : Char} {more behind : List Char} (same : '"' :: behind = escape c ++ more) :
      False := by
    have read := congrArg unescape same
    rw [unescape_escape] at read
    obtain ⟨quote, -⟩ := Prod.mk.inj (Option.some.inj read)
    rw [← quote] at same
    cases same
  induction cs generalizing cs' with
  | nil =>
    cases cs' with
    | nil => exact ⟨rfl, (List.cons.inj same).2⟩
    | cons c' cs' =>
      rw [List.flatMap_cons, List.append_assoc] at same
      exact (closed same).elim
  | cons c cs ih =>
    cases cs' with
    | nil =>
      rw [List.flatMap_cons, List.append_assoc] at same
      exact (closed same.symm).elim
    | cons c' cs' =>
      rw [List.flatMap_cons, List.flatMap_cons, List.append_assoc, List.append_assoc] at same
      have read := congrArg unescape same
      rw [unescape_escape, unescape_escape] at read
      obtain ⟨rfl, later⟩ := Prod.mk.inj (Option.some.inj read)
      obtain ⟨rfl, behind⟩ := ih later
      exact ⟨rfl, behind⟩

theorem quote_prefix {s s' : String} {rest rest' : List Char}
    (same : (quote s).toList ++ rest = (quote s').toList ++ rest') : s = s' ∧ rest = rest' := by
  simp only [quote, String.toList_ofList, List.cons_append, List.append_assoc, List.nil_append,
    List.cons.injEq, true_and] at same
  obtain ⟨chars, behind⟩ := escapes_prefix same
  exact ⟨String.toList_inj.mp chars, behind⟩

end Formula.Text
