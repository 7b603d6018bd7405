import Formula.Decimal.Text

set_option autoImplicit false

namespace Formula

theorem take_drop_exact {p : Char → Bool} {inside rest : List Char}
    (all : ∀ c ∈ inside, p c = true) (stop : ∀ c ∈ rest.head?, p c = false) :
    (inside ++ rest).takeWhile p = inside ∧ (inside ++ rest).dropWhile p = rest := by
  rw [List.takeWhile_append_of_pos all, List.dropWhile_append_of_pos all]
  cases rest with
  | nil => simp
  | cons c rest =>
    have out := stop c rfl
    simp [out]

def AllDigits (cs : List Char) : Prop := ∀ c ∈ cs, c.isDigit = true

theorem all_digits_nil : AllDigits [] := by simp [AllDigits]

theorem all_digits_append {a b : List Char} (first : AllDigits a) (second : AllDigits b) :
    AllDigits (a ++ b) := by
  intro c member
  rcases List.mem_append.mp member with early | late
  · exact first c early
  · exact second c late

structure Power where
  mark : Char
  sign : List Char
  digits : List Char
  isMark : mark = 'e' ∨ mark = 'E'
  isSign : sign = [] ∨ sign = ['+'] ∨ sign = ['-']
  written : digits ≠ []
  isDigits : AllDigits digits

def Power.text (p : Power) : List Char := p.mark :: (p.sign ++ p.digits)

def Power.value (p : Power) : Int :=
  if p.sign = ['-'] then -(Digits.toNat p.digits : Int) else Digits.toNat p.digits

structure Numeral where
  whole : List Char
  places : List Char
  power : Option Power
  written : whole ≠ []
  wholeDigits : AllDigits whole
  placesDigits : AllDigits places

namespace Numeral

def fraction : List Char → List Char
  | [] => []
  | c :: cs => '.' :: c :: cs

def base (n : Numeral) : List Char := n.whole ++ fraction n.places

def powerText : Option Power → List Char
  | none => []
  | some p => p.text

def text (n : Numeral) : List Char := n.base ++ powerText n.power

def exponent (n : Numeral) : Int :=
  match n.power with
  | none => 0
  | some p => p.value

def decimal (n : Numeral) : Decimal :=
  ⟨Digits.toNat (n.whole ++ n.places), n.places.length - n.exponent⟩

def Fits (n : Numeral) : Prop :=
  Decimal.fitsWord 127 n.exponent = true ∧ Decimal.fitsWord 63 n.decimal.scale = true

end Numeral

def signed (negative : Bool) (cs : List Char) : List Char := if negative then '-' :: cs else cs

def Decimal.signed (negative : Bool) (d : Decimal) : Decimal := if negative then -d else d

namespace Decimal

theorem guarded_ok_iff {ε α : Type} {test : Prop} [Decidable test] {a b : α} {fault : ε} :
    (if test then Except.ok a else .error fault) = .ok b ↔ test ∧ b = a := by
  by_cases holds : test
  · simp [holds, eq_comm]
  · simp [holds]

theorem digit_ne {c d : Char} (digit : c.isDigit = true) (other : d.isDigit = false) : c ≠ d := by
  rintro rfl
  rw [digit] at other
  cases other

theorem digit_not_mark {c : Char} (digit : c.isDigit = true) :
    isExponentMark c = false := by
  have small : c ≠ 'e' := digit_ne digit rfl
  have large : c ≠ 'E' := digit_ne digit rfl
  simp [isExponentMark, small, large]

theorem read_exponent_iff (p : Power) (e : Int) :
    readExponent (p.sign ++ p.digits) = .ok e ↔ fitsWord 127 p.value = true ∧ e = p.value := by
  obtain ⟨mark, sign, digits, isMark, isSign, written, isDigits⟩ := p
  obtain ⟨d, ds, rfl⟩ := List.exists_cons_of_ne_nil written
  have all : (d :: ds).all Char.isDigit = true := List.all_eq_true.mpr isDigits
  have minus : d ≠ '-' := digit_ne (isDigits d List.mem_cons_self) rfl
  have plus : d ≠ '+' := digit_ne (isDigits d List.mem_cons_self) rfl
  rcases isSign with rfl | rfl | rfl
  all_goals
    simp [readExponent, Power.value, minus, plus, -List.all_cons, all]
    exact guarded_ok_iff

theorem read_magnitude_digits {cs : List Char} (written : cs ≠ []) (digits : AllDigits cs) :
    readMagnitude cs = .ok (Digits.toNat cs) := by
  obtain ⟨d, ds, rfl⟩ := List.exists_cons_of_ne_nil written
  have plus : d ≠ '+' := digit_ne (digits d List.mem_cons_self) rfl
  have underscore (c : Char) (member : c ∈ d :: ds) : c ≠ '_' := digit_ne (digits c member) rfl
  have all : (d :: ds).all (fun c => c.isDigit || c == '_') = true :=
    List.all_eq_true.mpr fun c member => by simp [digits c member]
  have kept : (d :: ds).filter (· != '_') = d :: ds :=
    List.filter_eq_self.mpr fun c member => by simp [underscore c member]
  simp [readMagnitude, plus, underscore d, -List.all_cons, all, kept]

theorem read_unscaled_digits (negative : Bool) {cs : List Char} (written : cs ≠ [])
    (digits : AllDigits cs) :
    readUnscaled (Formula.signed negative cs) =
      .ok (if negative then -(Digits.toNat cs : Int) else Digits.toNat cs) := by
  have read := read_magnitude_digits written digits
  obtain ⟨d, ds, rfl⟩ := List.exists_cons_of_ne_nil written
  have plus : d ≠ '+' := digit_ne (digits d List.mem_cons_self) rfl
  have minus : d ≠ '-' := digit_ne (digits d List.mem_cons_self) rfl
  cases negative
  · simp [Formula.signed, readUnscaled, minus, read]
    rfl
  · simp [Formula.signed, readUnscaled, plus, read]
    rfl

theorem signed_digits_ne (negative : Bool) {cs : List Char} (digits : AllDigits cs) {c : Char}
    (other : c.isDigit = false) (sign : c ≠ '-') : ∀ d ∈ Formula.signed negative cs, d ≠ c := by
  intro d member
  cases negative with
  | false => exact digit_ne (digits d member) other
  | true =>
    rcases List.mem_cons.mp member with rfl | member
    · exact sign.symm
    · exact digit_ne (digits d member) other

theorem signed_append (negative : Bool) (a b : List Char) :
    Formula.signed negative (a ++ b) = Formula.signed negative a ++ b := by
  cases negative <;> rfl

theorem split_point_base (negative : Bool) (n : Numeral) :
    splitPoint (Formula.signed negative n.base) =
      (Formula.signed negative (n.whole ++ n.places), n.places.length) := by
  have before : ∀ d ∈ Formula.signed negative n.whole, (d != '.') = true := by
    intro d member
    simpa using signed_digits_ne negative n.wholeDigits (c := '.') rfl (by decide) d member
  have kept : n.places.filter (· != '_') = n.places := by
    apply List.filter_eq_self.mpr
    intro c member
    simpa using digit_ne (n.placesDigits c member) (d := '_') rfl
  rw [Numeral.base, signed_append, signed_append, splitPoint]
  have point : ∀ c ∈ (Numeral.fraction n.places).head?, (c != '.') = false := by
    cases n.places <;> simp [Numeral.fraction]
  obtain ⟨taken, dropped⟩ := take_drop_exact before point
  rw [taken, dropped]
  cases places : n.places with
  | nil => simp [Numeral.fraction]
  | cons c cs =>
    rw [places] at kept
    simp only [Numeral.fraction, kept]

theorem fraction_no_mark {n : Numeral} {c : Char} (member : c ∈ Numeral.fraction n.places) :
    isExponentMark c = false := by
  cases places : n.places with
  | nil => simp [places, Numeral.fraction] at member
  | cons d ds =>
    rw [places] at member
    rcases List.mem_cons.mp member with rfl | member
    · rfl
    · exact digit_not_mark (n.placesDigits c (places ▸ member))

theorem power_apart (negative : Bool) (n : Numeral) :
    (Formula.signed negative n.text).takeWhile (!isExponentMark ·) =
        Formula.signed negative n.base ∧
      (Formula.signed negative n.text).dropWhile (!isExponentMark ·) =
        Numeral.powerText n.power := by
  rw [Numeral.text, signed_append]
  apply take_drop_exact
  · intro c member
    rw [Numeral.base, signed_append] at member
    rw [Bool.not_eq_true']
    rcases List.mem_append.mp member with before | behind
    · have small := signed_digits_ne negative n.wholeDigits (c := 'e') rfl (by decide) c before
      have large := signed_digits_ne negative n.wholeDigits (c := 'E') rfl (by decide) c before
      simp [isExponentMark, small, large]
    · exact fraction_no_mark behind
  · cases power : n.power with
    | none => simp [Numeral.powerText]
    | some p =>
      rcases p.isMark with mark | mark <;> simp [Numeral.powerText, Power.text, mark, isExponentMark]

def readPower : List Char → Except TextFault Int
  | [] => .ok 0
  | _ :: exponent => readExponent exponent

def readScaled (base : List Char) (exponent : Int) : Except TextFault Decimal :=
  let (digits, places) := splitPoint base
  if fitsWord 63 (places - exponent) then
    (readUnscaled digits).map fun unscaled => ⟨unscaled, places - exponent⟩
  else .error .scaleTooLarge

theorem read_eq (cs : List Char) (written : cs.takeWhile (!isExponentMark ·) ≠ []) :
    read cs = readPower (cs.dropWhile (!isExponentMark ·)) >>=
      readScaled (cs.takeWhile (!isExponentMark ·)) := by
  unfold read readScaled
  -- The bounds of the word are large numbers, which nothing here should compute.
  generalize fitsWord 63 = fits
  generalize cs.takeWhile (!isExponentMark ·) = base at written ⊢
  generalize cs.dropWhile (!isExponentMark ·) = behind
  simp only [written, if_false]
  generalize splitPoint base = split
  cases behind
  all_goals
    rw [readPower]
    refine bind_congr fun exponent => ?_
    cases fits (split.2 - exponent) with
    | false => rfl
    | true => cases readUnscaled split.1 <;> rfl

theorem fits_zero (bits : Nat) : fitsWord bits 0 = true := by
  have positive : 0 < twoPow bits := Nat.pow_pos (by decide)
  rw [fitsWord, Bool.and_eq_true, decide_eq_true_iff, decide_eq_true_iff]
  omega

theorem read_power_iff (n : Numeral) (e : Int) :
    readPower (Numeral.powerText n.power) = .ok e ↔
      fitsWord 127 n.exponent = true ∧ e = n.exponent := by
  unfold Numeral.exponent
  cases n.power with
  | none =>
    simp only [Numeral.powerText, readPower, fits_zero, true_and, Except.ok.injEq]
    exact eq_comm
  | some p => exact read_exponent_iff p e

theorem read_scaled_iff (negative : Bool) (n : Numeral) (d : Decimal) :
    readScaled (Formula.signed negative n.base) n.exponent = .ok d ↔
      fitsWord 63 n.decimal.scale = true ∧ d = n.decimal.signed negative := by
  have written : n.whole ++ n.places ≠ [] := by simp [n.written]
  have unscaled := read_unscaled_digits negative written
    (all_digits_append n.wholeDigits n.placesDigits)
  rw [readScaled, split_point_base]
  simp only [unscaled]
  refine guarded_ok_iff.trans (and_congr_right fun _ => ?_)
  cases negative <;> rfl

theorem read_signed_iff (negative : Bool) (n : Numeral) (d : Decimal) :
    read (Formula.signed negative n.text) = .ok d ↔ n.Fits ∧ d = n.decimal.signed negative := by
  obtain ⟨base, power⟩ := power_apart negative n
  have written : Formula.signed negative n.base ≠ [] := by
    cases negative <;> simp [Formula.signed, Numeral.base, n.written]
  have read := read_power_iff n
  rw [read_eq _ (base ▸ written), base, power]
  cases exponent : readPower (Numeral.powerText n.power) with
  | error fault =>
    have large : ¬ fitsWord 127 n.exponent = true := by
      intro fits
      rw [(read n.exponent).mpr ⟨fits, rfl⟩] at exponent
      cases exponent
    exact ⟨nofun, fun fits => absurd fits.1.1 large⟩
  | ok e =>
    obtain ⟨fits, rfl⟩ := (read e).mp exponent
    refine (read_scaled_iff negative n d).trans ?_
    rw [Numeral.Fits, and_assoc, and_iff_right fits]

end Decimal

end Formula
