import Formula.Proofs.Declarations

set_option autoImplicit false

namespace Formula

def Fails {α : Type} (p : Error → Prop) (result : Result α) : Prop :=
  ∀ e, result = .error (.failed e) → p e

section

variable {α β : Type} {p : Error → Prop}

@[simp] theorem fails_ok (a : α) : Fails p (.ok a) := by
  intro e failed
  cases failed

@[simp] theorem fails_pure (a : α) : Fails p (pure a) := fails_ok a

@[simp] theorem fails_error (e : Error) : Fails p (.error (.failed e) : Result α) ↔ p e := by
  constructor
  · intro fails
    exact fails e rfl
  · rintro holds _ ⟨⟩
    exact holds

@[simp] theorem fails_of (cause : Cause) :
    Fails p (.error (.of cause) : Result α) ↔ p (.of cause) := fails_error _

@[simp] theorem fails_located (cause : Cause) (span : Span) :
    Fails p (.error (.located cause span) : Result α) ↔ p (.located cause span) := fails_error _

@[simp] theorem fails_panicked : Fails p (.error .panicked : Result α) := by
  intro e failed
  cases failed

@[simp] theorem fails_bind (first : Result α) (next : α → Result β) :
    Fails p (first >>= next) ↔ Fails p first ∧ ∀ a, first = .ok a → Fails p (next a) := by
  rcases first with (e | _) | a
  · change Fails p (.error (.failed e)) ↔ _
    simp
  · change Fails p (.error .panicked) ↔ _
    simp
  · change Fails p (next a) ↔ _
    simp

@[simp] theorem fails_except_map (f : α → β) (result : Result α) :
    Fails p (result.map f) ↔ Fails p result := by
  rcases result with (e | _) | a <;> simp [Except.map]

@[simp] theorem fails_map (f : α → β) (result : Result α) :
    Fails p (f <$> result) ↔ Fails p result := fails_except_map f result

@[simp] theorem fails_if (c : Prop) [Decidable c] (a b : Result α) :
    Fails p (if c then a else b) ↔ (c → Fails p a) ∧ (¬c → Fails p b) := by
  by_cases h : c <;> simp [h]

@[simp] theorem fails_by_range (d : Decimal) (inside outside : Result α) :
    Fails p (d.byRange inside outside) ↔
      (d.inRange = some true → Fails p inside) ∧ (d.inRange = some false → Fails p outside) := by
  rw [Decimal.byRange]
  rcases d.inRange with _ | _ | _ <;> simp

@[simp] theorem fails_write (d : Decimal) : Fails p (d.write : Result String) := by
  rw [Decimal.write]
  split <;> simp

@[simp] theorem fails_value_write (v : Value) : Fails p (v.write : Result String) := by
  cases v <;> simp [Value.write]

theorem fails_imp {q : Error → Prop} {result : Result α} (all : ∀ e, p e → q e)
    (fails : Fails p result) : Fails q result :=
  fun e failed => all e (fails e failed)

theorem fails_traverse {f : β → Result α} {bs : List β} (each : ∀ b ∈ bs, Fails p (f b)) :
    Fails p (bs.mapM f) := by
  induction bs with
  | nil => simp
  | cons b bs ih =>
    rw [List.forall_mem_cons] at each
    simp [each.1, ih each.2]

end

structure Error.Hosted (e : Error) : Prop where
  unplaced : e.span = none
  notLexical : e.category ≠ .lexical
  notParse : e.category ≠ .parse

abbrev Hosted {α : Type} (result : Result α) : Prop := Fails Error.Hosted result

structure Function.Hosted (f : Function) : Prop where
  computes : ∀ args, Formula.Hosted (f.compute args)
  verifies : ∀ verifier, f.verifier = some verifier → ∀ args, Formula.Hosted (verifier args)

def Environment.Hosted (env : Environment) : Prop :=
  ∀ name f, env.get? name = some (.function f) → f.Hosted

@[simp] theorem error_of_hosted (cause : Cause) :
    (Error.of cause).Hosted ↔ cause.category ≠ .lexical ∧ cause.category ≠ .parse :=
  ⟨fun hosted => ⟨hosted.notLexical, hosted.notParse⟩, fun other => ⟨rfl, other.1, other.2⟩⟩

def Error.Arithmetic (e : Error) : Prop := ∃ cause, e = .of cause ∧ cause.category = .arithmetic

@[simp] theorem error_of_arithmetic (cause : Cause) :
    (Error.of cause).Arithmetic ↔ cause.category = .arithmetic := by
  constructor
  · rintro ⟨_, same, arithmetic⟩
    cases same
    exact arithmetic
  · intro arithmetic
    exact ⟨cause, rfl, arithmetic⟩

theorem arithmetic_hosted (e : Error) (arithmetic : e.Arithmetic) : e.Hosted := by
  obtain ⟨cause, rfl, category⟩ := arithmetic
  simp [category]

namespace Decimal

@[simp] theorem ensure_arithmetic (d : Decimal) (operation : String) :
    Fails Error.Arithmetic (d.ensureInRange operation) := by
  simp [ensureInRange, Cause.category]

@[simp] theorem integer_power_arithmetic (base exponent : Decimal) :
    Fails Error.Arithmetic (base.integerPower exponent) := by
  rw [integerPower]
  simp only [fails_if, fails_ok, implies_true, true_and]
  intro _ _ _
  cases exponent.toWord? with
  | none => simp [Cause.category]
  | some n =>
    dsimp only
    rcases base.normalized.powerInReach n.natAbs with _ | _ | _ <;> simp [Cause.category]

theorem power_arithmetic (base exponent : Decimal) :
    Fails Error.Arithmetic (base.power exponent) := by
  rw [power]
  simp only [fails_if, fails_of, error_of_arithmetic, Cause.category, integer_power_arithmetic]
  cases ofFloat? (base.toFloat.pow exponent.toFloat) <;> simp [Cause.category]

theorem root_arithmetic (d : Decimal) (degree : Nat) :
    Fails Error.Arithmetic (d.nthRoot degree) := by
  rw [nthRoot]
  simp [Cause.category]

@[simp] theorem ensure_hosted (d : Decimal) (operation : String) :
    Hosted (d.ensureInRange operation) :=
  fails_imp arithmetic_hosted (ensure_arithmetic d operation)

@[simp] theorem power_hosted (base exponent : Decimal) : Hosted (base.power exponent) :=
  fails_imp arithmetic_hosted (power_arithmetic base exponent)

@[simp] theorem root_hosted (d : Decimal) (degree : Nat) : Hosted (d.nthRoot degree) :=
  fails_imp arithmetic_hosted (root_arithmetic d degree)

end Decimal

namespace Catalogue

def Invalid (name : String) (e : Error) : Prop := ∃ message, e = .of (.invalidArgument name message)

theorem invalid_error_hosted {name : String} (e : Error) (argument : Invalid name e) :
    e.Hosted := by
  obtain ⟨message, rfl⟩ := argument
  simp [Cause.category]

@[simp] theorem of_result_eq {α : Type} (result : Result α) :
    (Computation.ofResult result : Result α) = result := rfl

@[simp] theorem fails_invalid {α : Type} {p : Error → Prop} (name message : String) :
    Fails p (invalid name message : Result α) ↔ p (.of (.invalidArgument name message)) :=
  fails_error _

@[simp] theorem fails_minus {p : Error → Prop} (n k : Nat) :
    Fails p (Computation.minus n k : Result Nat) := by
  change Fails p (if k ≤ n then .ok (n - k) else .error .panicked)
  simp

@[simp] theorem invalid_argument (name message : String) :
    Invalid name (.of (.invalidArgument name message)) := ⟨message, rfl⟩

theorem number_arg_eq (name : String) (args : List Value) (index : Nat) :
    (numberArg name args index : Result Decimal) =
      match args[index]?.bind Value.number? with
      | some d => .ok d
      | none => invalid name ("argument " ++ toString (index + 1) ++ " must be a number") := rfl

theorem text_arg_eq (name : String) (args : List Value) (index : Nat) :
    (textArg name args index : Result String) =
      match args[index]?.bind Value.text? with
      | some s => .ok s
      | none => invalid name ("argument " ++ toString (index + 1) ++ " must be a string") := rfl

theorem round_places_eq {args : List Value} {d : Decimal}
    (given : (numberArg "round" args 1 : Result Decimal) = .ok d) :
    (roundPlaces args : Result Int) =
      match d.toWord?.filter fun n => decide (0 ≤ n) && decide (n ≤ maxPlaces) with
      | some n => .ok n
      | none => d.write >>= fun text => invalid "round"
        ("decimal places must be an integer between 0 and " ++ toString maxPlaces ++ ", got " ++
          text) := by
  rw [roundPlaces, given]
  rfl

theorem char_index_eq {args : List Value} {index : Nat} {d : Decimal}
    (given : (numberArg "slice" args index : Result Decimal) = .ok d) (what : String) :
    (charIndex args index what : Result Nat) =
      match d.toInt?.filter fun n => decide (0 ≤ n) && decide (n < (twoPow 64 : Int)) with
      | some n => .ok n.toNat
      | none => d.write >>= fun text =>
        invalid "slice" (what ++ " must be a non-negative integer, got " ++ text) := by
  rw [charIndex, given]
  rfl

@[simp] theorem number_arg_invalid (name : String) (args : List Value) (index : Nat) :
    Fails (Invalid name) (numberArg name args index : Result Decimal) := by
  rw [number_arg_eq]
  cases args[index]?.bind Value.number? <;> simp

@[simp] theorem text_arg_invalid (name : String) (args : List Value) (index : Nat) :
    Fails (Invalid name) (textArg name args index : Result String) := by
  rw [text_arg_eq]
  cases args[index]?.bind Value.text? <;> simp

@[simp] theorem round_places_invalid (args : List Value) :
    Fails (Invalid "round") (roundPlaces args : Result Int) := by
  simp only [roundPlaces, fails_bind, number_arg_invalid, true_and]
  intro places _
  cases places.toWord?.filter fun n => decide (0 ≤ n) && decide (n ≤ maxPlaces) <;> simp

@[simp] theorem char_index_invalid (args : List Value) (index : Nat) (what : String) :
    Fails (Invalid "slice") (charIndex args index what : Result Nat) := by
  simp only [charIndex, fails_bind, number_arg_invalid, true_and]
  intro d _
  cases d.toInt?.filter fun n => decide (0 ≤ n) && decide (n < (twoPow 64 : Int)) <;> simp

theorem slice_bounds_invalid (args : List Value) :
    Fails (Invalid "slice") (sliceBounds args : Result (Nat × Nat)) := by
  simp [sliceBounds]

theorem positive_invalid (name : String) (args : List Value) :
    Fails (Invalid name) (positive name args : Result Unit) := by
  simp [positive]

@[simp] theorem number_arg_hosted (name : String) (args : List Value) (index : Nat) :
    Hosted (numberArg name args index : Result Decimal) :=
  fails_imp invalid_error_hosted (number_arg_invalid name args index)

@[simp] theorem text_arg_hosted (name : String) (args : List Value) (index : Nat) :
    Hosted (textArg name args index : Result String) :=
  fails_imp invalid_error_hosted (text_arg_invalid name args index)

@[simp] theorem round_places_hosted (args : List Value) :
    Hosted (roundPlaces args : Result Int) :=
  fails_imp invalid_error_hosted (round_places_invalid args)

@[simp] theorem slice_bounds_hosted (args : List Value) :
    Hosted (sliceBounds args : Result (Nat × Nat)) :=
  fails_imp invalid_error_hosted (slice_bounds_invalid args)

@[simp] theorem positive_hosted (name : String) (args : List Value) :
    Hosted (positive name args : Result Unit) :=
  fails_imp invalid_error_hosted (positive_invalid name args)

def Native.Hosted (n : Native Result) : Prop := n.function.Hosted

theorem fixed_hosted (name : String) (params : List Kind) (returns : Kind)
    {compute : List Value → Result Value} (computes : ∀ args, Formula.Hosted (compute args)) :
    (fixed name params returns compute).Hosted := ⟨computes, nofun⟩

theorem at_least_hosted (least : Nat) (name : String) (element returns : Kind)
    {compute : List Value → Result Value} (computes : ∀ args, Formula.Hosted (compute args)) :
    (atLeast least name element returns compute).Hosted := ⟨computes, nofun⟩

theorem verified_hosted {verifier : List Value → Result Unit} {n : Native Result}
    (verifies : ∀ args, Formula.Hosted (verifier args)) (hosted : n.Hosted) :
    (verifiedBy verifier n).Hosted := by
  refine ⟨hosted.computes, ?_⟩
  rintro _ ⟨⟩
  exact verifies

theorem of_number_hosted (name : String) {f : Decimal → Result Decimal}
    (computes : ∀ d, Formula.Hosted (f d)) : (ofNumber name f : Native Result).Hosted :=
  fixed_hosted _ _ _ fun args => by simp [computes]

theorem through_float_hosted (name : String) (f : Float → Float) :
    (throughFloat name f : Native Result).Hosted := by
  apply of_number_hosted
  intro d
  cases Decimal.ofFloat? (f d.toFloat) <;> simp [Cause.category]

theorem extremum_hosted (name : String) (better : Decimal → Decimal → Bool) :
    (extremum name better : Native Result).Hosted :=
  at_least_hosted _ _ _ _ fun args => by simp [fails_traverse]

theorem replacement_hosted (name : String) (f : List Char → List Char → List Char → List Char) :
    (replacement name f : Native Result).Hosted :=
  fixed_hosted _ _ _ fun args => by simp

theorem to_number_hosted (args : List Value) :
    Hosted (do
      let text ← textArg "toNumber" args 0
      match Decimal.ofText? text with
      | some d => pure (.number d)
      | none => invalid "toNumber" ("'" ++ text ++ "' is not a number") : Result Value) := by
  simp only [fails_bind, text_arg_hosted, true_and]
  intro text _
  cases Decimal.ofText? text <;> simp [Cause.category]

theorem functions_hosted : ∀ f ∈ functions, f.Hosted := by
  rw [functions, List.forall_mem_map]
  change ∀ n ∈ natives Result, n.Hosted
  rw [natives]
  simp only [List.forall_mem_cons]
  exact ⟨of_number_hosted _ fun _ => fails_ok _,
    of_number_hosted _ fun _ => fails_ok _,
    of_number_hosted _ fun _ => fails_ok _,
    of_number_hosted _ fun _ => fails_ok _,
    fixed_hosted _ _ _ fun _ => by simp,
    verified_hosted (by simp) (fixed_hosted _ _ _ fun _ => by simp),
    extremum_hosted _ _,
    extremum_hosted _ _,
    verified_hosted (by simp [Cause.category])
      (of_number_hosted _ fun _ => Decimal.root_hosted _ _),
    of_number_hosted _ fun _ => Decimal.root_hosted _ _,
    through_float_hosted _ _,
    verified_hosted (positive_hosted _) (through_float_hosted _ _),
    verified_hosted (positive_hosted _) (through_float_hosted _ _),
    verified_hosted (positive_hosted _) (through_float_hosted _ _),
    fixed_hosted _ _ _ to_number_hosted,
    at_least_hosted _ _ _ _ fun _ => by simp [fails_traverse],
    fixed_hosted _ _ _ fun _ => by simp,
    at_least_hosted _ _ _ _ fun _ => by simp [fails_traverse],
    fixed_hosted _ _ _ fun _ => by simp,
    replacement_hosted _ _,
    replacement_hosted _ _,
    verified_hosted (by simp) (fixed_hosted _ _ _ fun _ => by simp),
    nofun⟩

end Catalogue

namespace Environment

theorem declare_hosted {env next : Environment} {name : String} {symbol : Symbol}
    (hosted : env.Hosted) (own : ∀ f, symbol = .function f → f.Hosted)
    (declared : env.declare name symbol = .ok next) : next.Hosted := by
  intro n f bound
  rw [get_declared declared] at bound
  by_cases same : n = name
  · rw [if_pos same] at bound
    exact own f (Option.some.inj bound)
  · rw [if_neg same] at bound
    exact hosted n f bound

theorem declare_default_hosted {env next : Environment} {entry : String × Symbol}
    (hosted : env.Hosted) (member : entry ∈ Catalogue.defaults)
    (declared : Catalogue.declareDefault env entry = .ok next) : next.Hosted := by
  rw [Catalogue.declareDefault] at declared
  cases symbol : entry.2 with
  | value v =>
    rw [symbol] at declared
    refine declare_hosted hosted ?_ (variable_declared declared)
    intro g same
    cases same
  | function f =>
    rw [symbol] at declared
    have listed : f ∈ Catalogue.functions := by
      rcases List.mem_append.mp member with named | constant
      · obtain ⟨g, listed, rfl⟩ := List.mem_map.mp named
        cases symbol
        exact listed
      · simp only [List.mem_cons, List.not_mem_nil, or_false] at constant
        rcases constant with rfl | rfl <;> cases symbol
    refine declare_hosted hosted ?_ declared
    intro g same
    cases same
    exact Catalogue.functions_hosted f listed

theorem install_hosted {env : Environment} (hosted : env.Hosted) :
    (Catalogue.install env).1.Hosted :=
  declare_each_keeps _ (fun _ _ member _ before => declare_default_hosted before member) hosted

theorem empty_hosted : Environment.empty.Hosted := by
  intro name f bound
  cases bound

theorem defaults_hosted : Catalogue.environment.Hosted := install_hosted empty_hosted

end Environment

end Formula
