import Formula.Proofs.PowerRange
import Formula.Proofs.ResultScales

set_option autoImplicit false

namespace Formula.Decimal

namespace Words

def held (n : Int) : Result Int := if fitsWord 63 n then .ok n else .error .panicked

def number (unscaled scale : Int) : Result Decimal := do
  let scale ← held scale
  return ⟨unscaled, scale⟩

def normalized (d : Decimal) : Result Decimal :=
  if d.unscaled = 0 then .ok zero
  else
    let stripped := Digits.strip d.unscaled.natAbs
    number (d.unscaled.sign * stripped.1) (d.scale - stripped.2)

def mul (a b : Decimal) : Result Decimal :=
  if a.isUnit then .ok b
  else if b.isUnit then .ok a
  else number (a.unscaled * b.unscaled) (a.scale + b.scale)

def squaring (result square : Decimal) (exponent : Nat) : Result Decimal :=
  if exponent = 0 then .ok result
  else do
    let result ← (if exponent % 2 = 1 then mul result square else .ok result)
    let square ← (if exponent = 1 then .ok square else mul square square)
    squaring result square (exponent / 2)
termination_by exponent

def div (a b : Decimal) : Result Decimal :=
  if a.isZero || b.isUnit then .ok a
  else if a.unscaled = b.unscaled then number 1 (a.scale - b.scale)
  else do
    let difference ← held (a.scale - b.scale)
    let quotient := divideMagnitudes a.unscaled.natAbs b.unscaled.natAbs
    number (a.unscaled.sign * b.unscaled.sign * quotient.1) (difference + quotient.2)

def ensureInRange (d : Decimal) (operation : String) : Result Decimal := do
  let magnitude ← held |d.scale|
  if magnitude ≤ maxScale ∧ d.digits ≤ maxDigits then .ok d
  else .error (.of (.numberOutOfRange operation))

-- A product that does not fit is no overflow, because it is checked and refused; its magnitude is
-- taken without a check.
def powerInReach (base : Decimal) (exponent : Nat) : Result Bool :=
  let scale := base.scale * exponent
  if exponent < twoPow 63 ∧ fitsWord 63 scale then do
    let magnitude ← held |scale|
    return decide (magnitude ≤ maxScale) &&
      !(Binary.ofNat maxDigits).less (estimatedDigits base.unscaled.natAbs exponent)
  else .ok false

def integerPower (base exponent : Decimal) : Result Decimal :=
  if exponent.isZero then .ok one
  else if base.isZero then .ok zero
  else if base.abs.sameNumber one then
    .ok (if base.isNegative && exponent.isOdd then -one else one)
  else
    match exponent.toWord? with
    | none => .error (.of (.numberOutOfRange "^"))
    | some n => do
      let base ← normalized base
      let reached ← powerInReach base n.natAbs
      if reached then
        let result ← squaring one base n.natAbs
        if n < 0 then
          let quotient ← div one result
          ensureInRange quotient "^"
        else .ok result
      else .error (.of (.numberOutOfRange "^"))

def power (base exponent : Decimal) : Result Decimal :=
  if base.isZero && exponent.isNegative then .error (.of .divisionByZero)
  else if exponent.isInteger then integerPower base exponent
  else
    match ofFloat? (base.toFloat.pow exponent.toFloat) with
    | some result => ensureInRange result "^"
    | none => do
      let base ← base.write
      let exponent ← exponent.write
      .error (.of (.domainError "^" (base ++ " ^ " ++ exponent ++ " has no finite real result")))

theorem held_of_fits {n : Int} (fits : fitsWord 63 n = true) : held n = .ok n := if_pos fits

theorem held_of_lt {n : Int} (inner : |n| < 2 ^ 63) : held n = .ok n :=
  held_of_fits (fits_of_lt inner)

theorem held_lowest : held |lowestScale| = .error .panicked := by decide

theorem number_of_fits {scale : Int} (fits : fitsWord 63 scale = true) (unscaled : Int) :
    number unscaled scale = .ok ⟨unscaled, scale⟩ := by
  rw [number, held_of_fits fits]
  rfl

theorem number_of_lt {scale : Int} (inner : |scale| < 2 ^ 63) (unscaled : Int) :
    number unscaled scale = .ok ⟨unscaled, scale⟩ := number_of_fits (fits_of_lt inner) unscaled

theorem mul_of_fits {a b : Decimal} (fits : fitsWord 63 (a.scale + b.scale) = true) :
    mul a b = .ok (a * b) := by
  change _ = Except.ok (Decimal.mul a b)
  rw [mul, Decimal.mul, number_of_fits fits]
  by_cases left : a.isUnit
  · rw [if_pos left, if_pos left]
  · rw [if_neg left, if_neg left]
    by_cases right : b.isUnit
    · rw [if_pos right, if_pos right]
    · rw [if_neg right, if_neg right]

theorem normalized_of_bounded {d : Decimal} (bounded : d.Bounded) :
    normalized d = .ok d.normalized := by
  have near := normalized_scale_le bounded
  rw [Decimal.normalized] at near ⊢
  rw [normalized]
  by_cases nothing : d.unscaled = 0
  · rw [if_pos nothing, if_pos nothing]
  · rw [if_neg nothing] at near ⊢
    rw [if_neg nothing]
    exact number_of_lt (lt_of_le_of_lt near (by decide)) _

theorem scaled_fits {s : Int} {k l : Nat} (less : k ≤ l) (fits : fitsWord 63 (s * l) = true) :
    fitsWord 63 (s * k) = true := by
  rw [fits_word_iff] at fits ⊢
  have cast : (k : Int) ≤ l := Int.ofNat_le.mpr less
  rcases le_total 0 s with nonneg | nonpos
  · have product := mul_le_mul_of_nonneg_left cast nonneg
    have natural := mul_nonneg nonneg (Int.natCast_nonneg k)
    omega
  · have product := mul_le_mul_of_nonpos_left cast nonpos
    have negative := mul_nonpos_of_nonpos_of_nonneg nonpos (Int.natCast_nonneg k)
    omega

-- On the exponent, as for the exact power; all scales on the way are multiples of that of the base,
-- and none is further than the last.
theorem squaring_words {u s : Int} (last : ¬ (10 : Int) ∣ u) {i j exponent : Nat}
    (fits : fitsWord 63 (s * (i + j * exponent : Nat)) = true) :
    squaring ⟨u ^ i, s * i⟩ ⟨u ^ j, s * j⟩ exponent =
      .ok ⟨u ^ (i + j * exponent), s * (i + j * exponent : Nat)⟩ := by
  induction exponent using Nat.strongRecOn generalizing i j with
  | ind exponent ih =>
    rw [squaring]
    by_cases done : exponent = 0
    · rw [if_pos done, done, mul_zero, add_zero]
    · have product {k l : Nat} (less : k + l ≤ i + j * exponent) :
          mul ⟨u ^ k, s * k⟩ ⟨u ^ l, s * l⟩ = .ok ⟨u ^ (k + l), s * (k + l : Nat)⟩ := by
        have inner := scaled_fits less fits
        rw [Nat.cast_add, mul_add] at inner
        rw [mul_of_fits (a := ⟨u ^ k, s * k⟩) (b := ⟨u ^ l, s * l⟩) inner, mul_powers last]
      have result : (if exponent % 2 = 1 then mul ⟨u ^ i, s * i⟩ ⟨u ^ j, s * j⟩
          else .ok ⟨u ^ i, s * i⟩) =
          .ok ⟨u ^ (i + j * (exponent % 2)), s * (i + j * (exponent % 2) : Nat)⟩ := by
        by_cases odd : exponent % 2 = 1
        · have less : i + j ≤ i + j * exponent :=
            Nat.add_le_add_left (Nat.le_mul_of_pos_right j (by omega)) i
          rw [if_pos odd, product less, odd, mul_one]
        · rw [if_neg odd, show exponent % 2 = 0 by omega, mul_zero, add_zero]
      rw [if_neg done, result]
      by_cases last_bit : exponent = 1
      · subst last_bit
        change squaring ⟨u ^ (i + j * 1), s * (i + j * 1 : Nat)⟩ ⟨u ^ j, s * j⟩ 0 = _
        rw [squaring, if_pos rfl]
      · have twice := Nat.mul_le_mul_left j (show 2 ≤ exponent by omega)
        have less : j + j ≤ i + j * exponent := by omega
        rw [if_neg last_bit, product less, ← halved_sum i j exponent]
        apply ih (exponent / 2) (by omega)
        rwa [halved_sum]

theorem exact_power_words {base : Decimal} (last : ¬ (10 : Int) ∣ base.unscaled) {m : Nat}
    (fits : fitsWord 63 (base.scale * m) = true) :
    squaring one base m = .ok (exactPower base m) := by
  have first : fitsWord 63 (base.scale * (0 + 1 * m : Nat)) = true := by rwa [zero_add, one_mul]
  have form := squaring_words last first
  simp only [pow_zero, pow_one, Nat.cast_zero, mul_zero, Nat.cast_one, mul_one, zero_add,
    one_mul] at form
  rw [exact_power_form last]
  exact form

theorem ensured_words {d : Decimal} (inner : |d.scale| < 2 ^ 63) (operation : String) :
    ensureInRange d operation = d.ensureInRange operation := by
  rw [ensureInRange, held_of_lt (by rwa [abs_abs]), Decimal.ensureInRange]
  change (if |d.scale| ≤ maxScale ∧ d.digits ≤ maxDigits then _ else _) = _
  rw [digits, count_eq_written]
  by_cases bounded : d.Bounded
  · rw [by_range_bounded _ _ bounded, if_pos ⟨bounded.scale, bounded.short⟩]
  · rw [by_range_past _ _ (inner_off_lowest inner) bounded,
      if_neg fun both => bounded ⟨both.1, both.2⟩]

theorem div_words {a b : Decimal} (dividend : a.Bounded) (divisor : b.Bounded) :
    div a b = .ok (a / b) := by
  obtain ⟨difference, inner⟩ := div_scale_inner dividend divisor
  change |(a.div b).scale| < 2 ^ 63 at inner
  change div a b = .ok (a.div b)
  rw [div]
  rw [Decimal.div] at inner ⊢
  by_cases kept : (a.isZero || b.isUnit) = true
  · rw [if_pos kept, if_pos kept]
  · rw [if_neg kept] at inner ⊢
    rw [if_neg kept]
    by_cases same : a.unscaled = b.unscaled
    · rw [if_pos same, if_pos same]
      exact number_of_lt difference 1
    · rw [if_neg same] at inner ⊢
      rw [if_neg same, held_of_lt difference]
      exact number_of_lt inner _

theorem reach_words (base : Decimal) (m : Nat) :
    powerInReach base m =
      match base.powerInReach m with
      | some reached => .ok reached
      | none => .error .panicked := by
  rw [powerInReach, Decimal.powerInReach]
  by_cases fits : m < twoPow 63 ∧ fitsWord 63 (base.scale * m) = true
  · rw [if_pos fits, if_pos fits]
    by_cases lowest : base.scale * m = lowestScale
    · rw [lowest, held_lowest]
      rfl
    · obtain ⟨low, high⟩ := (fits_word_iff 63 _).mp fits.2
      have inner : |base.scale * m| < 2 ^ 63 := abs_lt.mpr ⟨low.lt_of_ne' lowest, high⟩
      rw [held_of_lt (by rwa [abs_abs]), scale_magnitude_some lowest]
      rfl
  · rw [if_neg fits, if_neg fits]

theorem integer_power_words {base : Decimal} (bounded : base.Bounded) (exponent : Decimal) :
    integerPower base exponent = base.integerPower exponent := by
  rw [integerPower, Decimal.integerPower]
  by_cases none : exponent.isZero = true
  · rw [if_pos none, if_pos none]
  · rw [if_neg none, if_neg none]
    by_cases nothing : base.isZero = true
    · rw [if_pos nothing, if_pos nothing]
    · rw [if_neg nothing, if_neg nothing]
      by_cases unit : base.abs.sameNumber one = true
      · rw [if_pos unit, if_pos unit]
      · rw [if_neg unit, if_neg unit]
        cases exponent.toWord? with
        | none => rfl
        | some n =>
          have last := normalized_last nothing
          dsimp only
          rw [normalized_of_bounded bounded]
          change powerInReach base.normalized n.natAbs >>= _ = _
          rw [reach_words]
          cases reach : base.normalized.powerInReach n.natAbs with
          | none => rfl
          | some reached =>
            cases reached with
            | false => rfl
            | true =>
              have near := (reach_iff.mp reach).2.1
              have computed := exact_power_words last
                (fits_of_lt (lt_of_le_of_lt near (by decide)))
              change squaring one base.normalized n.natAbs >>= _ = _
              rw [computed]
              by_cases negative : n < 0
              · have result := in_range_iff_bounded.mp (reached_in_range last reach)
                simp only [if_pos negative]
                change div one (exactPower base.normalized n.natAbs) >>= _ = _
                rw [div_words one_bounded result]
                exact ensured_words (div_scale_inner one_bounded result).2 "^"
              · simp only [if_neg negative]
                rfl

theorem power_eq {base : Decimal} (bounded : base.Bounded) (exponent : Decimal) :
    power base exponent = base.power exponent := by
  rw [power, Decimal.power, integer_power_words bounded]
  by_cases division : (base.isZero && exponent.isNegative) = true
  · rw [if_pos division, if_pos division]
  · rw [if_neg division, if_neg division]
    by_cases integer : exponent.isInteger = true
    · rw [if_pos integer, if_pos integer]
    · rw [if_neg integer, if_neg integer]
      cases float : ofFloat? (base.toFloat.pow exponent.toFloat) with
      | none => rfl
      | some result => exact ensured_words (of_float_scale float) "^"

end Words

theorem unit_scale {d : Decimal} (unit : d.abs.sameNumber one = true) : d.normalized.scale = 0 := by
  rw [same_number_iff, abs_value, one_value] at unit
  have signed : d.toRat = one.toRat ∨ d.toRat = (-one).toRat := by
    rw [neg_value, one_value]
    exact eq_or_eq_neg_of_abs_eq unit
  rcases signed with plus | minus
  · rw [(normalized_eq_iff d one).mpr plus]
    decide +kernel
  · rw [(normalized_eq_iff d (-one)).mpr minus]
    decide +kernel

theorem lowest_plain {base exponent : Decimal} {n : Int} (value : exponent.toRat = n)
    (lowest : base.normalized.scale * n.natAbs = lowestScale) :
    ¬ base.isZero = true ∧ ¬ base.abs.sameNumber one = true ∧ ¬ exponent.isZero = true := by
  have scale : base.normalized.scale ≠ 0 := by
    intro flat
    rw [flat, zero_mul] at lowest
    exact absurd lowest (by decide)
  refine ⟨?_, mt unit_scale scale, ?_⟩
  · intro nothing
    apply scale
    rw [normalized, if_pos (beq_iff_eq.mp nothing)]
    rfl
  · intro none
    rw [is_zero_iff, value, Int.cast_eq_zero] at none
    rw [none, Int.natAbs_zero, Nat.cast_zero, mul_zero] at lowest
    exact absurd lowest (by decide)

theorem power_at_lowest {base exponent : Decimal} (lowest : LowestPower base exponent) :
    power base exponent = .error .panicked := by
  obtain ⟨n, value, small, lowest⟩ := lowest
  obtain ⟨some, plain, more⟩ := lowest_plain value lowest
  have fits : fitsWord 63 n = true := (fits_word_iff 63 n).mpr (by omega)
  rw [power_plain value fits some plain more, reach_none.mpr ⟨small, lowest⟩]

theorem integer_power_panics {base exponent : Decimal}
    (panics : integerPower base exponent = .error .panicked) : LowestPower base exponent := by
  have computed := integer_power_cases base exponent
  rw [panics] at computed
  generalize outcome : Except.error Stop.panicked = output at computed
  cases computed with
  | reciprocal nonzero negative word reach =>
    have result := in_range_iff_bounded.mp (reached_in_range (normalized_last nonzero) reach)
    exact absurd outcome.symm (ensured_never_panics (div_scale_inner one_bounded result).2 "^")
  | overflow lowest => exact lowest
  | _ => cases outcome

theorem power_panics {base exponent : Decimal} (left : base.Bounded) (right : exponent.Bounded)
    (panics : power base exponent = .error .panicked) : LowestPower base exponent := by
  rw [power, write_of_bounded left, write_of_bounded right] at panics
  split at panics
  · cases panics
  split at panics
  · exact integer_power_panics panics
  split at panics
  · rename_i found
    exact absurd panics (ensured_never_panics (of_float_scale found) "^")
  · cases panics

/-- The powers of numbers in range are computed in words without overflow, and what comes out is in
range; but a power whose scale is the lowest word overflows, and no other one. -/
theorem power_words {base exponent : Decimal} (left : base.Bounded) (right : exponent.Bounded) :
    Words.power base exponent = power base exponent ∧
      (power base exponent = .error .panicked ↔ LowestPower base exponent) ∧
      ∀ result, power base exponent = .ok result → result.Bounded :=
  ⟨Words.power_eq left exponent, ⟨power_panics left right, power_at_lowest⟩,
    fun _ ok => in_range_iff_bounded.mp (power_in_range ok)⟩

theorem power_words_of_square :
    Bounded ⟨999, 0⟩ ∧ Bounded ⟨2, 0⟩ ∧
      Words.power ⟨999, 0⟩ ⟨2, 0⟩ = power ⟨999, 0⟩ ⟨2, 0⟩ ∧
      power ⟨999, 0⟩ ⟨2, 0⟩ ≠ .error .panicked := by
  have left : Bounded ⟨999, 0⟩ := bounded_of_few (by decide)
  have right : Bounded ⟨2, 0⟩ := bounded_of_few (by decide)
  obtain ⟨words, overflow, -⟩ := power_words left right
  refine ⟨left, right, words, mt overflow.mp ?_⟩
  rintro ⟨n, -, -, lowest⟩
  have flat : (⟨999, 0⟩ : Decimal).normalized.scale = 0 := by decide +kernel
  rw [flat, zero_mul] at lowest
  exact absurd lowest (by decide)

/-- A power of a hundred in range overflows. -/
theorem power_of_hundred_overflows :
    ¬ ∀ base exponent : Decimal, base.Bounded → exponent.Bounded →
      Words.power base exponent ≠ .error .panicked := by
  intro fits
  have left : Bounded ⟨100, 0⟩ := bounded_of_few (by decide)
  have right : Bounded ⟨2 ^ 62, 0⟩ := ⟨by decide, by decide +kernel⟩
  have lowest : LowestPower ⟨100, 0⟩ ⟨2 ^ 62, 0⟩ := by
    refine ⟨2 ^ 62, ?_, by decide, by decide +kernel⟩
    rw [to_rat_mk, zpow_zero, div_one]
  apply fits ⟨100, 0⟩ ⟨2 ^ 62, 0⟩ left right
  rw [Words.power_eq left, power_at_lowest lowest]

end Formula.Decimal
