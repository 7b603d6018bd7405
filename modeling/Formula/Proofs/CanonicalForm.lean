import Formula.Proofs.CanonicalText
import Formula.Proofs.Numeral

set_option autoImplicit false

namespace Formula

namespace Digits

theorem to_nat_to_digits (n : Nat) : toNat (Nat.toDigits 10 n) = n :=
  Nat.ofDigitChars_toDigits (by decide) (by decide)

theorem to_nat_zeros (k : Nat) (cs : List Char) :
    toNat (List.replicate k '0' ++ cs) = toNat cs := by
  change Nat.ofDigitChars 10 (List.replicate k '0' ++ cs) 0 = Nat.ofDigitChars 10 cs 0
  rw [Nat.ofDigitChars_append, Nat.ofDigitChars_replicate_zero, Nat.mul_zero]

theorem to_digits_digits (n : Nat) : AllDigits (Nat.toDigits 10 n) :=
  fun _ member => Nat.isDigit_of_mem_toDigits (by decide) (by decide) member

theorem to_digits_ne_nil (n : Nat) : Nat.toDigits 10 n ≠ [] := by
  rw [Nat.toDigits_eq_if (by decide)]
  by_cases small : n < 10 <;> simp [small]

theorem to_digits_last {n : Nat} (last : ¬ 10 ∣ n) : (Nat.toDigits 10 n).getLast? ≠ some '0' := by
  have digit : n % 10 < 10 := Nat.mod_lt n (by decide)
  have ends : (Nat.toDigits 10 n).getLast? = some (Nat.digitChar (n % 10)) := by
    rw [Nat.toDigits_eq_if (by decide)]
    by_cases small : n < 10
    · simp [small, Nat.mod_eq_of_lt small]
    · simp [small]
  rw [ends]
  intro zero
  exact digit_char_ne_zero (by omega) digit (Option.some.inj zero)

end Digits

structure Numeral.Canonical (n : Numeral) : Prop where
  bare : n.power = none
  leading : n.whole = ['0'] ∨ n.whole.head? ≠ some '0'
  last : n.places.getLast? ≠ some '0'

def CanonicalText (cs : List Char) : Prop :=
  ∃ negative, ∃ n : Numeral, cs = signed negative n.text ∧ n.Canonical ∧
    (n.text = ['0'] → negative = false)

structure Numeral.Writes (n : Numeral) (magnitude : Nat) (scale : Int) : Prop where
  text : n.text = Decimal.magnitudeText magnitude scale
  canonical : n.Canonical
  digits : Digits.toNat (n.whole ++ n.places) = magnitude * 10 ^ (-scale).toNat
  places : (n.places.length : Int) = max 0 scale

namespace Numeral

theorem text_bare {n : Numeral} (bare : n.power = none) : n.text = n.base := by
  rw [text, bare, powerText, List.append_nil]

theorem exponent_bare {n : Numeral} (bare : n.power = none) : n.exponent = 0 := by
  rw [exponent, bare]

theorem zero_of_text {n : Numeral} (text : n.text = ['0']) : n.decimal.unscaled = 0 := by
  obtain ⟨whole, places, power, written, wholeDigits, placesDigits⟩ := n
  obtain ⟨c, cs, rfl⟩ := List.exists_cons_of_ne_nil written
  obtain ⟨rfl, rest⟩ := List.cons.inj text
  obtain ⟨front, -⟩ := List.append_eq_nil_iff.mp rest
  obtain ⟨rfl, point⟩ := List.append_eq_nil_iff.mp front
  cases places with
  | nil => rfl
  | cons d ds => cases point

section

variable {m : Nat} {scale : Int} (last : ¬ 10 ∣ m)
include last

theorem writes_whole (whole : scale ≤ 0) : ∃ n : Numeral, n.Writes m scale := by
  have positive : m ≠ 0 := by omega
  obtain ⟨c, cs, first, leading⟩ := Digits.to_digits_head positive
  have digits := Digits.to_digits_mul_pow positive (-scale).toNat
  let n : Numeral := ⟨Nat.toDigits 10 (m * 10 ^ (-scale).toNat), [], none,
    Digits.to_digits_ne_nil _, Digits.to_digits_digits _, all_digits_nil⟩
  have head : n.whole.head? = some c := by
    simp only [n]
    rw [digits, first]
    rfl
  refine ⟨n, ?_, ⟨rfl, .inr ?_, by simp [n]⟩, ?_, ?_⟩
  · rw [text_bare rfl, Decimal.magnitudeText, if_pos whole, Digits.of_nat_eq, ← digits]
    exact List.append_nil _
  · rw [head]
    simpa using leading
  · rw [List.append_nil]
    exact Digits.to_nat_to_digits _
  · exact (max_eq_left whole).symm

theorem writes_behind (places : 0 < scale) (short : (Nat.toDigits 10 m).length ≤ scale.toNat) :
    ∃ n : Numeral, n.Writes m scale := by
  obtain ⟨c, cs, first, -⟩ := Digits.to_digits_head (n := m) (by omega)
  let zeros := List.replicate (scale.toNat - (Nat.toDigits 10 m).length) '0'
  have behind : AllDigits (zeros ++ Nat.toDigits 10 m) :=
    all_digits_append (fun d member => List.eq_of_mem_replicate member ▸ rfl)
      (Digits.to_digits_digits m)
  let n : Numeral := ⟨['0'], zeros ++ Nat.toDigits 10 m, none, by simp, by simp [AllDigits], behind⟩
  have point : fraction n.places = '.' :: n.places := by
    obtain ⟨d, ds, more⟩ := List.exists_cons_of_ne_nil (l := n.places) (by simp [n, first])
    rw [more, fraction]
  refine ⟨n, ?_, ⟨rfl, .inl rfl, ?_⟩, ?_, ?_⟩
  · rw [text_bare rfl, base, point, Decimal.magnitudeText, if_neg (by omega), Digits.of_nat_eq]
    exact (if_pos short).symm
  · have ends := Digits.to_digits_last last
    rw [first] at ends
    simpa [n, first, List.getLast?_append] using ends
  · rw [Int.toNat_of_nonpos (by omega), pow_zero, Nat.mul_one]
    calc Digits.toNat (n.whole ++ n.places)
        = Digits.toNat (List.replicate 1 '0' ++ (zeros ++ Nat.toDigits 10 m)) := rfl
      _ = m := by rw [Digits.to_nat_zeros, Digits.to_nat_zeros, Digits.to_nat_to_digits]
  · simp only [n, zeros, List.length_append, List.length_replicate]
    omega

theorem writes_split (places : 0 < scale) (long : scale.toNat < (Nat.toDigits 10 m).length) :
    ∃ n : Numeral, n.Writes m scale := by
  obtain ⟨c, cs, first, leading⟩ := Digits.to_digits_head (n := m) (by omega)
  let front := (Nat.toDigits 10 m).length - scale.toNat
  have whole : (Nat.toDigits 10 m).take front ++ (Nat.toDigits 10 m).drop front =
      Nat.toDigits 10 m := List.take_append_drop _ _
  have digits := Digits.to_digits_digits m
  rw [← whole] at digits
  have written : (Nat.toDigits 10 m).take front ≠ [] := by
    rw [← List.length_pos_iff, List.length_take]
    omega
  let n : Numeral := ⟨(Nat.toDigits 10 m).take front, (Nat.toDigits 10 m).drop front, none, written,
    fun d member => digits d (List.mem_append_left _ member),
    fun d member => digits d (List.mem_append_right _ member)⟩
  have length : n.places.length = scale.toNat := by
    simp only [n, List.length_drop]
    omega
  have point : fraction n.places = '.' :: n.places := by
    obtain ⟨d, ds, more⟩ := List.exists_cons_of_length_pos (l := n.places) (by omega)
    rw [more, fraction]
  refine ⟨n, ?_, ⟨rfl, .inr ?_, ?_⟩, ?_, ?_⟩
  · rw [text_bare rfl, base, point, Decimal.magnitudeText, if_neg (by omega), Digits.of_nat_eq]
    exact (if_neg (by omega)).symm
  · simp only [n]
    rw [List.head?_take, if_neg (by omega), first]
    simpa using leading
  · simp only [n]
    rw [List.getLast?_drop, if_neg (by omega)]
    exact Digits.to_digits_last last
  · rw [Int.toNat_of_nonpos (by omega), pow_zero, Nat.mul_one]
    simp only [n]
    rw [whole, Digits.to_nat_to_digits]
  · rw [length]
    omega

theorem writes_magnitude : ∃ n : Numeral, n.Writes m scale := by
  by_cases whole : scale ≤ 0
  · exact writes_whole last whole
  · by_cases short : (Nat.toDigits 10 m).length ≤ scale.toNat
    · exact writes_behind last (by omega) short
    · exact writes_split last (by omega) (by omega)

end

theorem writes_value {n : Numeral} {m : Nat} {scale : Int} (writes : n.Writes m scale) :
    n.decimal.toRat = Decimal.toRat ⟨m, scale⟩ := by
  have more : scale ≤ max 0 scale := le_max_right 0 scale
  have shift : (max 0 scale - scale).toNat = (-scale).toNat := by omega
  rw [decimal, exponent_bare writes.canonical.bare, writes.digits, writes.places, sub_zero,
    ← Decimal.of_unscaled_at ⟨m, scale⟩ more, Decimal.unscaledAt, shift]
  simp [Decimal.toRat]

theorem writes_fits {n : Numeral} {m : Nat} {scale : Int} (writes : n.Writes m scale)
    (word : Decimal.fitsWord 63 scale = true) : n.Fits := by
  have exponent := exponent_bare writes.canonical.bare
  rw [Fits, exponent, decimal, exponent, writes.places, sub_zero]
  refine ⟨Decimal.fits_zero 127, ?_⟩
  rcases max_cases 0 scale with ⟨none, -⟩ | ⟨some, -⟩
  · rw [none]
    exact Decimal.fits_zero 63
  · rwa [some]

end Numeral

namespace Decimal

structure Shows (d : Decimal) (negative : Bool) (n : Numeral) : Prop where
  text : d.textChars = Formula.signed negative n.text
  canonical : n.Canonical
  unsigned : n.text = ['0'] → negative = false
  value : (n.decimal.signed negative).toRat = d.toRat
  fits : fitsWord 63 d.normalized.scale = true → n.Fits

theorem signed_value (negative : Bool) (d : Decimal) :
    (d.signed negative).toRat = if negative then -d.toRat else d.toRat := by
  cases negative
  · rfl
  · exact neg_value d

theorem signed_magnitude (d : Decimal) :
    (if d.unscaled < 0 then -toRat ⟨d.unscaled.natAbs, d.scale⟩
      else toRat ⟨d.unscaled.natAbs, d.scale⟩) = d.toRat := by
  have magnitude : toRat ⟨d.unscaled.natAbs, d.scale⟩ = |d.toRat| := abs_value d
  rw [magnitude]
  by_cases negative : d.unscaled < 0
  · rw [if_pos negative, abs_of_neg ((to_rat_neg d).mpr negative), neg_neg]
  · rw [if_neg negative, abs_of_nonneg (not_lt.mp (mt (to_rat_neg d).mp negative))]

theorem shows (d : Decimal) : ∃ negative n, d.Shows negative n := by
  have value := normalized_value d
  rcases normalized_canonical d with zero | last
  · let n : Numeral := ⟨['0'], [], none, by simp, by simp [AllDigits], all_digits_nil⟩
    refine ⟨false, n, ?_, ⟨rfl, .inl rfl, by simp [n]⟩, fun _ => rfl, ?_, fun _ => ?_⟩
    · rw [textChars, zero]
      rfl
    · rw [← value, zero]
      rfl
    · exact ⟨fits_zero 127, fits_zero 63⟩
  · have magnitude : ¬ 10 ∣ d.normalized.unscaled.natAbs := by omega
    have nonzero : d.normalized.unscaled ≠ 0 := by omega
    obtain ⟨n, writes⟩ : ∃ n : Numeral, n.Writes _ d.normalized.scale :=
      Numeral.writes_magnitude magnitude
    have shown := Numeral.writes_value writes
    refine ⟨decide (d.normalized.unscaled < 0), n, ?_, writes.canonical, ?_, ?_,
      Numeral.writes_fits writes⟩
    · rw [textChars, if_neg nonzero, writes.text]
      by_cases negative : d.normalized.unscaled < 0 <;> simp [negative, Formula.signed]
    · intro zero
      rw [(to_rat_eq_zero _).mpr (Numeral.zero_of_text zero), eq_comm, to_rat_eq_zero] at shown
      exact absurd (Int.natCast_eq_zero.mp shown) (Int.natAbs_ne_zero.mpr nonzero)
    · rw [signed_value, shown, ← value, ← signed_magnitude d.normalized]
      simp

theorem decimal_of_text {negative negative' : Bool} {n n' : Numeral} (bare : n.power = none)
    (bare' : n'.power = none)
    (same : Formula.signed negative n.text = Formula.signed negative' n'.text) :
    n.decimal.signed negative = n'.decimal.signed negative' := by
  have written (n : Numeral) : n.whole ++ n.places ≠ [] := by simp [n.written]
  have digits (n : Numeral) : AllDigits (n.whole ++ n.places) :=
    all_digits_append n.wholeDigits n.placesDigits
  rw [Numeral.text_bare bare, Numeral.text_bare bare'] at same
  have split := congrArg splitPoint same
  rw [split_point_base, split_point_base] at split
  obtain ⟨front, places⟩ := Prod.mk.inj split
  have unscaled := congrArg readUnscaled front
  rw [read_unscaled_digits _ (written n) (digits n),
    read_unscaled_digits _ (written n') (digits n')] at unscaled
  have scale : n.decimal.scale = n'.decimal.scale := by
    rw [Numeral.decimal, Numeral.decimal, places, Numeral.exponent_bare bare,
      Numeral.exponent_bare bare']
  have signed (negative : Bool) (n : Numeral) : n.decimal.signed negative =
      ⟨if negative then -(Digits.toNat (n.whole ++ n.places) : Int)
        else Digits.toNat (n.whole ++ n.places), n.decimal.scale⟩ := by
    cases negative <;> rfl
  rw [signed, signed, Except.ok.inj unscaled, scale]

theorem not_blank {c : Char} (digit : c.isDigit = true) : Text.isBlank c = false := by
  have bounds : 48 ≤ c.toNat ∧ c.toNat ≤ 57 := by
    simpa [Char.isDigit, UInt32.le_iff_toNat_le] using digit
  simp [Text.isBlank]
  omega

theorem trim_solid {cs : List Char} (solid : ∀ c ∈ cs, Text.isBlank c = false) :
    Text.trim cs = cs := by
  have kept {cs : List Char} (solid : ∀ c ∈ cs, Text.isBlank c = false) :
      cs.dropWhile Text.isBlank = cs := by
    cases cs with
    | nil => rfl
    | cons c cs => rw [List.dropWhile_cons_of_neg (by simp [solid c])]
  rw [Text.trim, Text.trimStart, kept solid, Text.trimEnd,
    kept fun c member => solid c (List.mem_reverse.mp member), List.reverse_reverse]

theorem trim_numeral (negative : Bool) {n : Numeral} (bare : n.power = none) :
    Text.trim (Formula.signed negative n.text) = Formula.signed negative n.text := by
  have places : ∀ c ∈ Numeral.fraction n.places, Text.isBlank c = false := by
    cases places : n.places with
    | nil => nofun
    | cons d ds =>
      intro c member
      rcases List.mem_cons.mp member with rfl | member
      · rfl
      · exact not_blank (n.placesDigits c (places ▸ member))
  have solid : ∀ c ∈ n.text, Text.isBlank c = false := by
    intro c member
    rw [Numeral.text_bare bare, Numeral.base] at member
    rcases List.mem_append.mp member with whole | behind
    · exact not_blank (n.wholeDigits c whole)
    · exact places c behind
  apply trim_solid
  cases negative with
  | false => exact solid
  | true => exact List.forall_mem_cons.mpr ⟨rfl, solid⟩

theorem shows_same {a b : Decimal} {negative negative' : Bool} {n n' : Numeral}
    (left : a.Shows negative n) (right : b.Shows negative' n') :
    a.text = b.text ↔ a.sameNumber b = true := by
  rw [same_number_iff]
  constructor
  · intro same
    have chars := String.ofList_injective same
    rw [left.text, right.text] at chars
    rw [← left.value, ← right.value,
      decimal_of_text left.canonical.bare right.canonical.bare chars]
  · intro value
    rw [text_eq, text_eq, value]

theorem shown_read {d : Decimal} {negative : Bool} {n : Numeral} (shown : d.Shows negative n)
    (word : fitsWord 63 d.normalized.scale = true) :
    ofText? d.text = some (n.decimal.signed negative) := by
  rw [ofText?, text, String.toList_ofList, shown.text, trim_numeral negative shown.canonical.bare,
    (read_signed_iff negative n _).mpr ⟨shown.fits word, rfl⟩]
  rfl

theorem shows_reads {d : Decimal} {negative : Bool} {n : Numeral} (shown : d.Shows negative n)
    (word : fitsWord 63 d.normalized.scale = true) :
    ∃ r, ofText? d.text = some r ∧ r.sameNumber d = true :=
  ⟨_, shown_read shown word, (same_number_iff _ _).mpr shown.value⟩

/-- The canonical text of a number reads back as this number, unless its scale is beyond the word it
is read into. Numbers have the same text exactly if they are equal. The text is an integer without
leading zeros, with a minus sign if it is negative, and with a fraction that does not end in a zero
if it has one. -/
theorem text_canonical (v w : Decimal) :
    (fitsWord 63 v.normalized.scale = true →
      ∃ r, ofText? v.text = some r ∧ r.sameNumber v = true) ∧
    (v.text = w.text ↔ v.sameNumber w = true) ∧
    CanonicalText v.text.toList := by
  obtain ⟨negative, n, shown⟩ := shows v
  obtain ⟨negative', n', shown'⟩ := shows w
  refine ⟨shows_reads shown, shows_same shown shown', negative, n, ?_, shown.canonical,
    shown.unsigned⟩
  rw [text, String.toList_ofList, shown.text]

theorem text_canonical_of_hundredths :
    fitsWord 63 (normalized ⟨-1200, 2⟩).scale = true ∧ text ⟨-1200, 2⟩ = "-12" ∧
      (∃ r, ofText? (text ⟨-1200, 2⟩) = some r ∧ r.sameNumber ⟨-1200, 2⟩ = true) ∧
      text ⟨-1200, 2⟩ = text ⟨-12, 0⟩ := by
  have word : fitsWord 63 (normalized ⟨-1200, 2⟩).scale = true := by decide
  have canonical := text_canonical ⟨-1200, 2⟩ ⟨-12, 0⟩
  exact ⟨word, by decide, canonical.1 word, canonical.2.1.mpr (by decide)⟩

end Decimal

end Formula
