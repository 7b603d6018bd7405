import Formula.Proofs.CanonicalForm
import Formula.Proofs.DefaultFunctions
import Formula.Proofs.RoundedPlaces

set_option autoImplicit false

namespace Formula

open Decimal (lowestScale maxDigits fitsWord)

namespace Digits

theorem to_nat_last (cs : List Char) (c : Char) :
    toNat (cs ++ [c]) = 10 * toNat cs + value c := by
  rw [toNat, List.foldl_append]
  rfl

theorem value_pos {c : Char} (digit : c.isDigit = true) (other : c ≠ '0') :
    0 < value c ∧ value c < 10 := by
  have bounds := Lexer.digit_code digit
  have past : c.toNat ≠ 48 := fun zero => other (Char.toNat_inj.mp zero)
  rw [value]
  omega

end Digits

namespace Numeral

theorem canonical_last {n : Numeral} (canonical : n.Canonical) :
    n.decimal.scale = 0 ∨ ¬ (10 : Int) ∣ n.decimal.unscaled := by
  rcases List.eq_nil_or_concat' n.places with none | ⟨front, c, places⟩
  · left
    rw [decimal, exponent_bare canonical.bare, none]
    rfl
  · right
    have last := canonical.last
    rw [places, List.getLast?_concat] at last
    have digit : c.isDigit = true := n.placesDigits c (by rw [places]; simp)
    obtain ⟨some, few⟩ := Digits.value_pos digit fun zero => last (congrArg _ zero)
    rw [decimal, places, ← List.append_assoc, Digits.to_nat_last]
    dsimp only
    omega

end Numeral

namespace Decimal

variable {d : Decimal} {negative : Bool} {n : Numeral}

theorem numeral_nonneg (n : Numeral) : 0 ≤ n.decimal.toRat := by
  rw [toRat]
  have positive := scale_pos n.decimal.scale
  exact div_nonneg (Int.cast_nonneg (Int.natCast_nonneg _)) positive.le

theorem shown_magnitude (shown : d.Shows negative n) : n.decimal.toRat = |d.toRat| := by
  rw [← shown.value, signed_value]
  cases negative with
  | false => exact (abs_of_nonneg (numeral_nonneg n)).symm
  | true => exact ((abs_neg _).trans (abs_of_nonneg (numeral_nonneg n))).symm

theorem abs_bounded (bounded : d.Bounded) : d.abs.Bounded := ⟨bounded.scale, bounded.short⟩

theorem shown_places (shown : d.Shows negative n) : 0 ≤ n.decimal.scale := by
  rw [Numeral.decimal, Numeral.exponent_bare shown.canonical.bare, sub_zero]
  exact Int.natCast_nonneg _

theorem shown_bounded_iff (bounded : d.Bounded) (shown : d.Shows negative n) :
    n.decimal.Bounded ↔ |d.toRat| < 10 ^ maxDigits := by
  have places := shown_places shown
  have magnitude := shown_magnitude shown
  have value : |n.decimal.toRat| = |d.toRat| := by
    rw [magnitude, abs_abs]
  constructor
  · intro within
    rw [← value]
    exact magnitude_lt_of_places within places
  · intro short
    rcases Numeral.canonical_last shown.canonical with flat | last
    · rwa [flat_bounded_iff flat, value]
    · have same : n.decimal.toRat = d.abs.toRat := by rw [magnitude, abs_value]
      apply bounded_of_scale_le same (abs_bounded bounded) (le_trans (by decide) places)
      by_contra finer
      have form := eq_of_last_digit last (not_le.mp finer).le same.symm
      rw [← form] at finer
      exact finer le_rfl

theorem shown_unsigned (shown : d.Shows negative n) (nonneg : 0 ≤ d.toRat) : negative = false := by
  cases negative with
  | false => rfl
  | true =>
    have value := shown.value
    rw [signed_value, if_pos rfl, shown_magnitude shown, abs_of_nonneg nonneg] at value
    have zero : d.normalized = .zero :=
      canonical_unique (normalized_canonical d) (.inl rfl)
        (by rw [normalized_value, zero_value]; linarith)
    have text := shown.text
    rw [textChars, zero] at text
    cases text

theorem normalized_word (bounded : d.Bounded) : fitsWord 63 d.normalized.scale = true := by
  have near := abs_le.mp (normalized_scale_le bounded)
  rw [maxScale, maxDigits] at near
  rw [fits_word_iff]
  omega

theorem shown_fits (bounded : d.Bounded) (shown : d.Shows negative n) : n.Fits :=
  shown.fits (normalized_word bounded)

theorem shown_scale_lt (bounded : d.Bounded) (shown : d.Shows negative n) :
    |n.decimal.scale| < 2 ^ 63 := by
  rw [abs_of_nonneg (shown_places shown)]
  exact ((fits_word_iff 63 _).mp (shown_fits bounded shown).2).2

theorem signed_bounded_iff (negative : Bool) (d : Decimal) :
    (d.signed negative).Bounded ↔ d.Bounded := by
  have scale : (d.signed negative).scale = d.scale := by cases negative <;> rfl
  have size : (d.signed negative).unscaled.natAbs = d.unscaled.natAbs := by
    cases negative with
    | false => rfl
    | true => exact Int.natAbs_neg d.unscaled
  constructor
  · intro bounded
    exact ⟨scale ▸ bounded.scale, size ▸ bounded.short⟩
  · intro bounded
    exact ⟨scale ▸ bounded.scale, size ▸ bounded.short⟩

end Decimal

namespace Lexer

theorem start_numeral (n : Numeral) :
    (Cursor.start (String.ofList n.text)).skip = ⟨0, n.text⟩ := by
  obtain ⟨c, cs, text, digit⟩ := numeral_first n
  have apart : ¬ isLayout c = true := by rw [not_layout (.inl digit)]; exact Bool.false_ne_true
  rw [Cursor.start, Cursor.skip, String.toList_ofList, text, List.takeWhile_cons_of_neg apart,
    List.dropWhile_cons_of_neg apart]
  rfl

theorem numeral_tokens {n : Numeral} (fits : n.Fits) (range : n.decimal.inRange = some true) :
    tokens (String.ofList n.text) =
      .ok [⟨.number n.decimal, String.ofList n.text, ⟨0, byteLength n.text⟩⟩,
        .eofAt (byteLength n.text)] := by
  have read : Decimal.read n.text = .ok n.decimal :=
    (Decimal.read_signed_iff false n n.decimal).mpr ⟨fits, rfl⟩
  refine tokens_iff_words.mpr ⟨[], [⟨[], n.text, .number n.decimal⟩], ?_,
    ⟨⟨nofun, .number n, nofun, fun m _ => ⟨n.decimal, read, range⟩⟩, nofun⟩, ?_⟩
  · rw [String.toList_ofList]
    exact (List.append_nil _).symm
  · rw [byte_size_of_list]
    simp [tokensFrom, byteLength]

theorem numeral_refused {n : Numeral} (fits : n.Fits) (other : n.decimal.scale ≠ lowestScale)
    (refused : ¬ n.decimal.Bounded) :
    tokens (String.ofList n.text) =
      .error (.failed ⟨.malformedNumber (String.ofList n.text)
        "the exponent is outside the supported range", some ⟨0, byteLength n.text⟩, none⟩) := by
  have start := start_numeral n
  have here : (Cursor.start (String.ofList n.text)).skip.rest = n.text ++ [] := by
    rw [start, List.append_nil]
  have failed := (fitting_numeral here nofun fits).outside other refused
  obtain ⟨c, cs, text, -⟩ := numeral_first n
  rw [tokens, lex, run_of_more (by rw [start, text]), failed, numeralError, numeralSpan, start,
    Nat.zero_add]
  rfl

end Lexer

theorem parsed_read_back :
    parse "toNumber('' + x) == x" =
      .ok (.binary .equal
        (.call "toNumber" [.binary .add (.literal (.text "") ⟨9, 11⟩) (.name "x" ⟨14, 15⟩) ⟨9, 15⟩]
          ⟨0, 16⟩)
        (.name "x" ⟨20, 21⟩) ⟨0, 21⟩) := by
  with_unfolding_all rfl

section

variable {env : Environment} {x : Decimal} (bounded : x.Bounded)

include bounded

theorem magnitude_numeral : ∃ n : Numeral, x.abs.Shows false n ∧ n.Fits ∧
    x.abs.text = String.ofList n.text ∧ n.decimal.toRat = |x.toRat| ∧
    (n.decimal.Bounded ↔ |x.toRat| < 10 ^ maxDigits) := by
  obtain ⟨negative, n, shown⟩ := Decimal.shows x.abs
  have nonneg : 0 ≤ x.abs.toRat := by
    rw [Decimal.abs_value]
    exact abs_nonneg _
  obtain rfl := Decimal.shown_unsigned shown nonneg
  have magnitude : |x.abs.toRat| = |x.toRat| := by rw [Decimal.abs_value, abs_abs]
  have range := Decimal.shown_bounded_iff (Decimal.abs_bounded bounded) shown
  refine ⟨n, shown, Decimal.shown_fits (Decimal.abs_bounded bounded) shown, ?_, ?_, ?_⟩
  · rw [Decimal.text, shown.text]
    rfl
  · rw [Decimal.shown_magnitude shown, magnitude]
  · rw [range, magnitude]

theorem magnitude_tokens :
    (|x.toRat| < 10 ^ maxDigits →
      ∃ m : Decimal, Lexer.tokens x.abs.text =
        .ok [⟨.number m, x.abs.text, ⟨0, x.abs.text.utf8ByteSize⟩⟩,
          .eofAt x.abs.text.utf8ByteSize] ∧ m.toRat = |x.toRat|) ∧
    (10 ^ maxDigits ≤ |x.toRat| →
      Lexer.tokens x.abs.text = .error (.failed ⟨.malformedNumber x.abs.text
        "the exponent is outside the supported range",
        some ⟨0, x.abs.text.utf8ByteSize⟩, none⟩)) := by
  obtain ⟨n, shown, fits, text, value, range⟩ := magnitude_numeral bounded
  rw [text, Lexer.byte_size_of_list]
  constructor
  · intro short
    have admitted := Decimal.in_range_iff_bounded.mpr (range.mpr short)
    exact ⟨n.decimal, Lexer.numeral_tokens fits admitted, value⟩
  · intro long
    refine Lexer.numeral_refused fits ?_ fun within => absurd (range.mp within) (not_lt.mpr long)
    intro lowest
    have places := Decimal.shown_places shown
    rw [lowest] at places
    exact absurd places (by decide)

theorem evaluate_read_back (defaults : env.HasDefaults)
    (number : env.get? "x" = some (.value (.number x))) :
    (|x.toRat| < 10 ^ maxDigits →
      evaluate "toNumber('' + x) == x" env = .ok (.boolean true)) ∧
    (10 ^ maxDigits ≤ |x.toRat| →
      evaluate "toNumber('' + x) == x" env =
        .error (.located (.numberOutOfRange "toNumber()") ⟨0, 16⟩)) := by
  obtain ⟨negative, n, shown⟩ := Decimal.shows x
  have read := Decimal.shown_read shown (Decimal.normalized_word bounded)
  have written (a b c : Span) :
      ((Expr.binary .add (.literal (.text "") a) (.name "x" b) c).eval env).outcome =
        .ok (.text x.text) := by
    rw [Expr.eval, Traced.bind_from rfl, Traced.bind_from (Expr.name_value number _)]
    change (x.write.map fun s => Value.text ("" ++ s) : Result Value) = _
    rw [Decimal.write_of_bounded bounded, Except.map, String.empty_append]
  have computed := Catalogue.to_number_call (f := Catalogue.functions[14]) (List.getElem_mem _)
    rfl read
  have scale : |(n.decimal.signed negative).scale| < 2 ^ 63 := by
    cases negative <;> exact Decimal.shown_scale_lt bounded shown
  have outcome := Expr.default_number defaults (List.getElem_mem _)
    (.cons (written ⟨9, 11⟩ ⟨14, 15⟩ ⟨9, 15⟩) .nil) computed scale ⟨0, 16⟩
  rw [Decimal.signed_bounded_iff, Decimal.shown_bounded_iff bounded shown, not_lt] at outcome
  rw [evaluate_of_parsed parsed_read_back]
  constructor
  · intro short
    exact Expr.equal_numbers (outcome.1 short) (Expr.name_value number _) shown.value _
  · intro long
    rw [Expr.eval]
    exact Traced.outcome_stopped (outcome.2 long)

end

/-- The canonical text of the magnitude of a number in range is one literal that denotes it, and a
number is found again in its own text, as long as the text has no more digits before the point than
a number may have. Longer texts are refused in both places. -/
theorem numbers_read_back {x : Decimal} (bounded : x.Bounded) {env : Environment}
    (defaults : env.HasDefaults) (number : env.get? "x" = some (.value (.number x))) :
    (|x.toRat| < 10 ^ maxDigits →
      (∃ m : Decimal, Lexer.tokens x.abs.text =
        .ok [⟨.number m, x.abs.text, ⟨0, x.abs.text.utf8ByteSize⟩⟩,
          .eofAt x.abs.text.utf8ByteSize] ∧ m.toRat = |x.toRat|) ∧
      evaluate "toNumber('' + x) == x" env = .ok (.boolean true)) ∧
    (10 ^ maxDigits ≤ |x.toRat| →
      Lexer.tokens x.abs.text = .error (.failed ⟨.malformedNumber x.abs.text
        "the exponent is outside the supported range",
        some ⟨0, x.abs.text.utf8ByteSize⟩, none⟩) ∧
      evaluate "toNumber('' + x) == x" env =
        .error (.located (.numberOutOfRange "toNumber()") ⟨0, 16⟩)) := by
  have scanned := magnitude_tokens bounded
  have evaluated := evaluate_read_back bounded defaults number
  exact ⟨fun short => ⟨scanned.1 short, evaluated.1 short⟩,
    fun long => ⟨scanned.2 long, evaluated.2 long⟩⟩

theorem numbers_read_back_of_negative :
    ∃ env : Environment, env.HasDefaults ∧ env.get? "x" = some (.value (.number ⟨-125, 2⟩)) ∧
      (∃ m : Decimal, Lexer.tokens "1.25" = .ok [⟨.number m, "1.25", ⟨0, 4⟩⟩, .eofAt 4] ∧
        m.toRat = |Decimal.toRat ⟨-125, 2⟩|) ∧
      evaluate "toNumber('' + x) == x" env = .ok (.boolean true) := by
  obtain ⟨env, defaults, number, -⟩ :=
    Environment.exists_with_variables (.number ⟨-125, 2⟩) (.number .zero)
  have ten : (10 : ℚ) ≤ 10 ^ maxDigits := le_self_pow₀ (by norm_num) (by decide)
  have value : Decimal.toRat ⟨-125, 2⟩ = -5 / 4 := by norm_num [Decimal.toRat]
  have short : |Decimal.toRat ⟨-125, 2⟩| < 10 ^ maxDigits := by
    rw [value, abs_of_neg (by norm_num)]
    linarith
  have text : (⟨-125, 2⟩ : Decimal).abs.text = "1.25" := by decide +kernel
  have found := (numbers_read_back ⟨by decide, by decide +kernel⟩ defaults number).1 short
  rw [text] at found
  exact ⟨env, defaults, number, found⟩

/-- Ten to the 250000 has a text that is no literal, and is not read as a number. -/
theorem long_text_refused :
    (Decimal.writtenPower 150000 (-100000)).Bounded ∧
      (∃ e, Lexer.tokens (Decimal.writtenPower 150000 (-100000)).abs.text = .error e) ∧
      ∃ env : Environment, env.HasDefaults ∧
        env.get? "x" = some (.value (.number (Decimal.writtenPower 150000 (-100000)))) ∧
        evaluate "toNumber('' + x) == x" env =
          .error (.located (.numberOutOfRange "toNumber()") ⟨0, 16⟩) := by
  have bounded := Decimal.long_power_bounded
  have long := Decimal.long_power_value.ge
  obtain ⟨env, defaults, number, -⟩ := Environment.exists_with_variables
    (.number (Decimal.writtenPower 150000 (-100000))) (.number .zero)
  exact ⟨bounded, ⟨_, (magnitude_tokens bounded).2 long⟩, env, defaults, number,
    (evaluate_read_back bounded defaults number).2 long⟩

end Formula
