import Formula.Proofs.CallContract
import Formula.Proofs.HostErrors
import Formula.Proofs.Slices

set_option autoImplicit false

namespace Formula

-- The cause of an argument that is not there, or is not of the kind that is asked for.
inductive Cause.Fallback : Cause → Prop where
  | number (name : String) (position : Nat) :
      Fallback (.invalidArgument name ("argument " ++ toString position ++ " must be a number"))
  | text (name : String) (position : Nat) :
      Fallback (.invalidArgument name ("argument " ++ toString position ++ " must be a string"))

def Error.Own (e : Error) : Prop := ¬ e.cause.Fallback

namespace Catalogue

open Catalogue.Computation

-- A computation that breaks off where it reads behind the last argument or takes a length from a
-- smaller one.
abbrev Guarded (α : Type) := ExceptT (Stop Error) Option α

namespace Guarded

variable {α β : Type}

def broken : Guarded α := ExceptT.mk none

instance : Computation Guarded where
  ofResult result := ExceptT.mk (some result)
  arg? args index := if index < args.length then pure args[index]? else broken
  minus n k := if k ≤ n then pure (n - k) else broken

def verify (n : Native Guarded) (args : List Value) : Guarded Unit :=
  match n.verifier with
  | none => pure ()
  | some verifier => verifier args

def call (f : Function) (n : Native Guarded) (args : List Value) : Guarded Value := do
  ofResult (f.checkArity args)
  ofResult (f.checkTypes args)
  verify n args
  n.compute args

@[simp] theorem of_result_bind (first : Result α) (next : α → Result β) :
    (ofResult (first >>= next) : Guarded β) = ofResult first >>= fun a => ofResult (next a) := by
  cases first <;> rfl

@[simp] theorem of_result_map (f : α → β) (result : Result α) :
    (ofResult (f <$> result) : Guarded β) = f <$> ofResult result := by
  cases result <;> rfl

theorem of_result_traverse {f : β → Result α} {g : β → Guarded α} {bs : List β}
    (each : ∀ b ∈ bs, g b = ofResult (f b)) : bs.mapM g = ofResult (bs.mapM f) := by
  induction bs with
  | nil => rfl
  | cons b bs ih =>
    rw [List.forall_mem_cons] at each
    simp [each.1, ih each.2]

section

variable {args : List Value} {index : Nat}

theorem arg_inside (inside : index < args.length) :
    (arg? args index : Guarded (Option Value)) = ofResult (arg? args index) := if_pos inside

theorem minus_inside {n k : Nat} (ordered : k ≤ n) :
    (minus n k : Guarded Nat) = ofResult (minus n k : Result Nat) := by
  rw [minus_of_le ordered]
  exact if_pos ordered

theorem number_inside (name : String) (inside : index < args.length) :
    (numberArg name args index : Guarded Decimal) = ofResult (numberArg name args index) := by
  rw [numberArg, numberArg, of_result_bind, arg_inside inside]
  congr 1
  funext arg
  cases arg.bind Value.number? <;> rfl

theorem text_inside (name : String) (inside : index < args.length) :
    (textArg name args index : Guarded String) = ofResult (textArg name args index) := by
  rw [textArg, textArg, of_result_bind, arg_inside inside]
  congr 1
  funext arg
  cases arg.bind Value.text? <;> rfl

theorem positive_inside (name : String) (some : 0 < args.length) :
    (positive name args : Guarded Unit) = ofResult (positive name args) := by
  rw [positive, positive, of_result_bind, number_inside name some]
  congr 1
  funext d
  cases d.isPositive <;> rfl

theorem round_places_inside (two : args.length = 2) :
    (roundPlaces args : Guarded Int) = ofResult (roundPlaces args) := by
  rw [roundPlaces, roundPlaces, of_result_bind, number_inside "round" (by omega)]
  congr 1
  funext places
  cases places.toWord?.filter fun n => decide (0 ≤ n) && decide (n ≤ maxPlaces) with
  | some n => rfl
  | none => exact (of_result_bind _ _).symm

theorem char_index_inside (inside : index < args.length) (what : String) :
    (charIndex args index what : Guarded Nat) = ofResult (charIndex args index what) := by
  rw [charIndex, charIndex, of_result_bind, number_inside "slice" inside]
  congr 1
  funext d
  cases d.toInt?.filter fun n => decide (0 ≤ n) && decide (n < (twoPow 64 : Int)) with
  | some n => rfl
  | none => exact (of_result_bind _ _).symm

theorem slice_bounds_inside (three : args.length = 3) :
    (sliceBounds args : Guarded (Nat × Nat)) = ofResult (sliceBounds args) := by
  rw [sliceBounds, sliceBounds, text_inside "slice" (by omega), char_index_inside (by omega),
    char_index_inside (by omega)]
  simp only [of_result_bind]
  congr! 6
  split
  · rfl
  split <;> rfl

theorem of_number_inside (name : String) (f : Decimal → Result Decimal) (some : 0 < args.length) :
    (ofNumber name f : Native Guarded).compute args =
      ofResult ((ofNumber name f : Native Result).compute args) := by
  simp [ofNumber, fixed, number_inside name some]

theorem extremum_inside (name : String) (better : Decimal → Decimal → Bool)
    (some : 0 < args.length) :
    (extremum name better : Native Guarded).compute args =
      ofResult ((extremum name better : Native Result).compute args) := by
  have rest : ((List.range (args.length - 1)).mapM fun index =>
      (numberArg name args (index + 1) : Guarded Decimal)) =
      ofResult ((List.range (args.length - 1)).mapM fun index =>
        numberArg name args (index + 1)) := by
    apply of_result_traverse
    intro index member
    have below := List.mem_range.mp member
    exact number_inside name (by omega)
  simp [extremum, atLeast, number_inside name some, rest]

end

end Guarded

theorem accepted_kind {f : Function} {args : List Value} (fit : f.KindsFit args) {i : Nat}
    {kind : Kind} {arg : Value} (declared : f.paramAt? i = some kind)
    (given : args[i]? = some arg) : kind.accepts arg = true := by
  by_contra other
  exact fit i kind arg ⟨given, (f.expects_iff i kind).mpr declared, Bool.eq_false_iff.mpr other⟩

abbrev Fit (params : List Kind) (args : List Value) : Prop :=
  List.Forall₂ (fun kind arg => kind.accepts arg = true) params args

theorem counted_args {f : Function} {args : List Value} (counted : f.arity = .exact f.params.length)
    (allowed : f.Allows args) (fit : f.KindsFit args) : Fit f.params args := by
  rw [Function.Allows, counted] at allowed
  refine List.forall₂_iff_get.mpr ⟨allowed.symm, ?_⟩
  intro i inside inside'
  have declared : f.paramAt? i = some (f.params.get ⟨i, inside⟩) := by
    rw [Function.paramAt?, counted]
    exact List.getElem?_eq_getElem inside
  exact accepted_kind fit declared (List.getElem?_eq_getElem inside')

theorem variadic_args {f : Function} {args : List Value} {least : Nat} {kind : Kind}
    (variadic : f.arity = .variadic least none) (element : f.params = [kind])
    (allowed : f.Allows args) (fit : f.KindsFit args) :
    least ≤ args.length ∧ ∀ arg ∈ args, kind.accepts arg = true := by
  rw [Function.Allows, variadic] at allowed
  refine ⟨allowed.1, ?_⟩
  intro arg member
  obtain ⟨i, given⟩ := List.mem_iff_getElem?.mp member
  have declared : f.paramAt? i = some kind := by
    rw [Function.paramAt?, variadic, element]
    rfl
  exact accepted_kind fit declared given

theorem number_of_kind {v : Value} (kind : Kind.number.accepts v = true) :
    ∃ d, v = .number d := by
  cases v with
  | number d => exact ⟨d, rfl⟩
  | text _ | boolean _ => cases kind

theorem text_of_kind {v : Value} (kind : Kind.string.accepts v = true) : ∃ s, v = .text s := by
  cases v with
  | text s => exact ⟨s, rfl⟩
  | number _ | boolean _ => cases kind

theorem own_of_category {cause : Cause} (other : cause.category ≠ .call) :
    (Error.of cause).Own := by
  rintro (_ | _) <;> exact other rfl

theorem arithmetic_own (e : Error) (arithmetic : e.Arithmetic) : e.Own := by
  obtain ⟨cause, rfl, category⟩ := arithmetic
  exact own_of_category (by rw [category]; decide)

theorem last_appended (front : String) {back : String} (some : back.toList ≠ []) :
    (front ++ back).toList.getLast? = back.toList.getLast? := by
  rw [String.toList_append, List.getLast?_append_of_ne_nil _ some]

theorem fallback_message {name message : String}
    (fallback : (Cause.invalidArgument name message).Fallback) :
    message.toList.head? = some 'a' ∧
      (message.toList.getLast? = some 'r' ∨ message.toList.getLast? = some 'g') := by
  cases fallback with
  | number name position =>
    refine ⟨?_, .inl ?_⟩
    · simp [String.toList_append]
    · rw [last_appended _ (by decide)]
      rfl
  | text name position =>
    refine ⟨?_, .inr ?_⟩
    · simp [String.toList_append]
    · rw [last_appended _ (by decide)]
      rfl

-- Two ways to tell a message from those of the fallbacks: by how it begins, and by how it ends.
theorem own_of_head (name : String) {message : String} (other : message.toList.head? ≠ some 'a') :
    (Error.of (.invalidArgument name message)).Own :=
  fun fallback => other (fallback_message fallback).1

theorem own_of_last (name : String) {message : String}
    (other : message.toList.getLast? = some 'e') :
    (Error.of (.invalidArgument name message)).Own := by
  intro fallback
  obtain ⟨-, last | last⟩ := fallback_message fallback <;> rw [other] at last <;> cases last

theorem invalid_own {α : Type} {name message : String} (other : message.toList.head? ≠ some 'a') :
    Fails Error.Own (invalid name message : Result α) :=
  (fails_error _).mpr (own_of_head name other)

theorem round_places_own {args : List Value} {d : Decimal}
    (given : (numberArg "round" args 1 : Result Decimal) = .ok d) :
    Fails Error.Own (roundPlaces args : Result Int) := by
  rw [round_places_eq given]
  cases d.toWord?.filter fun n => decide (0 ≤ n) && decide (n ≤ maxPlaces) with
  | some n => exact fails_ok n
  | none =>
    rw [fails_bind]
    exact ⟨fails_write d, fun text _ => invalid_own (by simp [String.toList_append])⟩

theorem char_index_own {args : List Value} {index : Nat} {d : Decimal}
    (given : (numberArg "slice" args index : Result Decimal) = .ok d) {what : String}
    (other : what.toList.head? = some 's' ∨ what.toList.head? = some 'e') :
    Fails Error.Own (charIndex args index what : Result Nat) := by
  rw [char_index_eq given]
  cases d.toInt?.filter fun n => decide (0 ≤ n) && decide (n < (twoPow 64 : Int)) with
  | some n => exact fails_ok n.toNat
  | none =>
    rw [fails_bind]
    refine ⟨fails_write d, fun text _ => invalid_own ?_⟩
    rcases other with first | first <;> simp [String.toList_append, first]

theorem slice_bounds_own (s : String) (a b : Decimal) :
    Fails Error.Own (sliceBounds [.text s, .number a, .number b] : Result (Nat × Nat)) := by
  have text : (textArg "slice" [.text s, .number a, .number b] 0 : Result String) = .ok s := rfl
  have start : Fails Error.Own
      (charIndex [.text s, .number a, .number b] 1 "start" : Result Nat) :=
    char_index_own rfl (.inl rfl)
  have stop : Fails Error.Own
      (charIndex [.text s, .number a, .number b] 2 "end" : Result Nat) :=
    char_index_own rfl (.inr rfl)
  rw [sliceBounds, text]
  simp only [fails_bind, fails_ok, start, stop, fails_if, fails_pure, true_and, implies_true,
    and_true]
  intro _ _ _ _ _ _
  exact ⟨fun _ => invalid_own (by simp [String.toList_append]),
    fun _ _ => invalid_own (by simp [String.toList_append])⟩

def Gives (kind : Kind) (result : Result Value) : Prop :=
  ∀ v, result = .ok v → kind.accepts v = true

theorem gives_pure {kind : Kind} {v : Value} (accepted : kind.accepts v = true) :
    Gives kind (pure v) := by
  rintro _ ⟨⟩
  exact accepted

theorem gives_bind {α : Type} {kind : Kind} (first : Result α)
    {next : α → Result Value} (each : ∀ a, Gives kind (next a)) :
    Gives kind (first >>= next) := by
  cases first with
  | ok a => exact each a
  | error e => exact nofun

structure Sound (f : Function) (n : Native Guarded) : Prop where
  computesInside : ∀ args, f.Allows args → n.compute args = ofResult (f.compute args)
  verifiesInside : ∀ args, f.Allows args → Guarded.verify n args = ofResult (f.verify args).outcome
  computesOwn : ∀ args, f.Allows args → f.KindsFit args → Fails Error.Own (f.compute args)
  verifiesOwn : ∀ args, f.Allows args → f.KindsFit args → Fails Error.Own (f.verify args).outcome
  returns : ∀ args, Gives f.returns (f.compute args)

section

variable {name : String} {returns : Kind} {compute : List Value → Result Value}
  {guarded : List Value → Guarded Value}

theorem fixed_sound {params : List Kind}
    (inside : ∀ args, args.length = params.length → guarded args = ofResult (compute args))
    (own : ∀ args, Fit params args → Fails Error.Own (compute args))
    (gives : ∀ args, Gives returns (compute args)) :
    Sound (fixed name params returns compute).function (fixed name params returns guarded) where
  computesInside := inside
  verifiesInside _ _ := rfl
  computesOwn _ allowed fit := own _ (counted_args rfl allowed fit)
  verifiesOwn _ _ _ := fails_ok ()
  returns := gives

theorem at_least_sound {least : Nat} {element : Kind}
    (inside : ∀ args, least ≤ args.length → guarded args = ofResult (compute args))
    (own : ∀ args, least ≤ args.length → (∀ arg ∈ args, element.accepts arg = true) →
      Fails Error.Own (compute args))
    (gives : ∀ args, Gives returns (compute args)) :
    Sound (atLeast least name element returns compute).function
      (atLeast least name element returns guarded) where
  computesInside _ allowed := inside _ allowed.1
  verifiesInside _ _ := rfl
  computesOwn _ allowed fit :=
    have ⟨enough, kinds⟩ := variadic_args rfl rfl allowed fit
    own _ enough kinds
  verifiesOwn _ _ _ := fails_ok ()
  returns := gives

end

theorem verified_kinds {n : Native Result} {verifier : List Value → Result Unit}
    {args : List Value} (fit : (verifiedBy verifier n).function.KindsFit args) :
    n.function.KindsFit args := by
  rintro i expected arg ⟨given, declared, other⟩
  refine fit i expected arg ⟨given, ?_, other⟩
  cases declared with
  | element variadic declared => exact .element variadic declared
  | place counted declared => exact .place counted declared

theorem verified_sound {n : Native Result} {g : Native Guarded}
    {verifier : List Value → Result Unit} {guarded : List Value → Guarded Unit}
    (sound : Sound n.function g)
    (inside : ∀ args, n.function.Allows args → guarded args = ofResult (verifier args))
    (own : ∀ args, n.function.Allows args → n.function.KindsFit args →
      Fails Error.Own (verifier args)) :
    Sound (verifiedBy verifier n).function (verifiedBy guarded g) where
  computesInside := sound.computesInside
  verifiesInside := inside
  computesOwn args allowed fit := sound.computesOwn args allowed (verified_kinds fit)
  verifiesOwn args allowed fit := own args allowed (verified_kinds fit)
  returns := sound.returns

theorem number_args {args : List Value} (fit : Fit [.number] args) : ∃ d, args = [.number d] := by
  obtain _ | ⟨only, _ | _⟩ := fit
  obtain ⟨d, rfl⟩ := number_of_kind only
  exact ⟨d, rfl⟩

theorem of_number_sound {name : String} {f : Decimal → Result Decimal}
    (own : ∀ d, Fails Error.Own (f d)) : Sound (ofNumber name f).function (ofNumber name f) := by
  apply fixed_sound
  · intro args (one : args.length = 1)
    exact Guarded.of_number_inside name f (by omega)
  · intro args fit
    obtain ⟨d, rfl⟩ := number_args fit
    have given : (numberArg name [.number d] 0 : Result Decimal) = .ok d := rfl
    simp [given, own]
  · intro args
    exact gives_bind _ fun _ => gives_bind _ fun _ => gives_pure rfl

theorem root_own (degree : Nat) (d : Decimal) : Fails Error.Own (d.nthRoot degree) :=
  fails_imp arithmetic_own (Decimal.root_arithmetic d degree)

theorem through_float_sound (name : String) (f : Float → Float) :
    Sound (throughFloat name f).function (throughFloat name f) := by
  apply of_number_sound
  intro d
  cases Decimal.ofFloat? (f d.toFloat) with
  | some result => exact fails_ok result
  | none =>
    rw [fails_bind]
    exact ⟨fails_write d, fun _ _ => (fails_error _).mpr (own_of_category (by simp [Cause.category]))⟩

theorem positive_sound (name : String) (f : Float → Float) :
    Sound (verifiedBy (positive name) (throughFloat name f)).function
      (verifiedBy (positive name) (throughFloat name f)) := by
  apply verified_sound (through_float_sound name f)
  · intro args (one : args.length = 1)
    exact Guarded.positive_inside name (by omega)
  · intro args allowed fit
    obtain ⟨d, rfl⟩ := number_args (counted_args rfl allowed fit)
    have given : (numberArg name [.number d] 0 : Result Decimal) = .ok d := rfl
    simp only [positive, given, fails_bind, fails_ok, fails_if, fails_pure, true_and, implies_true]
    intro _ _ _
    exact (fails_error _).mpr (own_of_last name (by rfl))

theorem root_sound : Sound functions[8] (natives Guarded)[8] := by
  apply verified_sound (of_number_sound (root_own 2))
  · intro args (one : args.length = 1)
    rw [Guarded.of_result_bind, Guarded.number_inside "sqrt" (by omega)]
    congr 1
    funext d
    cases d.isNegative <;> rfl
  · intro args allowed fit
    obtain ⟨d, rfl⟩ := number_args (counted_args rfl allowed fit)
    have given : (numberArg "sqrt" [.number d] 0 : Result Decimal) = .ok d := rfl
    simp only [given, fails_bind, fails_ok, fails_if, fails_pure, true_and, implies_true, and_true]
    intro _ _ _
    exact invalid_own (by decide)

theorem two_number_args {args : List Value} (fit : Fit [.number, .number] args) :
    ∃ a b, args = [.number a, .number b] := by
  obtain _ | ⟨first, _ | ⟨second, _ | _⟩⟩ := fit
  obtain ⟨a, rfl⟩ := number_of_kind first
  obtain ⟨b, rfl⟩ := number_of_kind second
  exact ⟨a, b, rfl⟩

theorem pow_sound : Sound functions[4] (natives Guarded)[4] := by
  apply fixed_sound
  · intro args two
    simp [Guarded.number_inside, two]
  · intro args fit
    obtain ⟨base, exponent, rfl⟩ := two_number_args fit
    have first : (numberArg "pow" [.number base, .number exponent] 0 : Result Decimal) =
      .ok base := rfl
    have second : (numberArg "pow" [.number base, .number exponent] 1 : Result Decimal) =
      .ok exponent := rfl
    simp [first, second, fails_imp arithmetic_own (Decimal.power_arithmetic base exponent)]
  · intro args
    exact gives_bind _ fun _ => gives_bind _ fun _ => gives_bind _ fun _ => gives_pure rfl

theorem round_sound : Sound functions[5] (natives Guarded)[5] := by
  refine verified_sound (fixed_sound ?_ ?_ ?_) ?_ ?_
  · intro args (two : args.length = 2)
    simp [Guarded.number_inside, Guarded.round_places_inside two, two]
  · intro args fit
    obtain ⟨d, places, rfl⟩ := two_number_args fit
    have first : (numberArg "round" [.number d, .number places] 0 : Result Decimal) = .ok d := rfl
    have second : Fails Error.Own (roundPlaces [.number d, .number places] : Result Int) :=
      round_places_own (d := places) rfl
    simp [first, second]
  · intro args
    exact gives_bind _ fun _ => gives_bind _ fun _ => gives_pure rfl
  · intro args (two : args.length = 2)
    simp [Guarded.round_places_inside two]
  · intro args allowed fit
    obtain ⟨d, places, rfl⟩ := two_number_args (counted_args rfl allowed fit)
    have given : (numberArg "round" [.number d, .number places] 1 : Result Decimal) = .ok places :=
      rfl
    simp [round_places_own given]

theorem extremum_sound (name : String) (better : Decimal → Decimal → Bool) :
    Sound (extremum name better).function (extremum name better) := by
  apply at_least_sound
  · intro args some
    exact Guarded.extremum_inside name better some
  · intro args some kinds
    have given (i : Nat) (inside : i < args.length) :
        Fails Error.Own (numberArg name args i : Result Decimal) := by
      obtain ⟨d, number⟩ := number_of_kind (kinds args[i] (List.getElem_mem inside))
      have read : (numberArg name args i : Result Decimal) = .ok d := by
        rw [number_arg_eq, List.getElem?_eq_getElem inside, number]
        rfl
      rw [read]
      exact fails_ok d
    have rest : Fails Error.Own ((List.range (args.length - 1)).mapM fun index =>
        numberArg name args (index + 1) : Result (List Decimal)) := by
      apply fails_traverse
      intro index member
      have below := List.mem_range.mp member
      exact given _ (by omega)
    simp [given 0 some, rest]
  · intro args
    exact gives_bind _ fun _ => gives_bind _ fun _ => gives_pure rfl

theorem text_args {args : List Value} (fit : Fit [.string] args) : ∃ s, args = [.text s] := by
  obtain _ | ⟨only, _ | _⟩ := fit
  obtain ⟨s, rfl⟩ := text_of_kind only
  exact ⟨s, rfl⟩

theorem to_number_sound : Sound functions[14] (natives Guarded)[14] := by
  apply fixed_sound
  · intro args (one : args.length = 1)
    rw [Guarded.of_result_bind, Guarded.text_inside _ (by omega)]
    congr 1
    funext text
    cases Decimal.ofText? text <;> rfl
  · intro args fit
    obtain ⟨s, rfl⟩ := text_args fit
    have given : (textArg "toNumber" [.text s] 0 : Result String) = .ok s := rfl
    rw [given]
    dsimp only [bind, Except.bind]
    cases Decimal.ofText? s with
    | some d => exact fails_pure _
    | none => exact invalid_own (by simp [String.toList_append])
  · intro args
    apply gives_bind
    intro text
    cases Decimal.ofText? text with
    | some d => exact gives_pure rfl
    | none => exact nofun

theorem concat_sound : Sound functions[15] (natives Guarded)[15] := by
  apply at_least_sound
  · intro args _
    simp
  · intro args _ _
    simp [fails_traverse]
  · intro args
    exact gives_bind _ fun _ => gives_pure rfl

theorem contains_sound : Sound functions[16] (natives Guarded)[16] := by
  apply fixed_sound
  · intro args two
    simp [Guarded.text_inside, two]
  · intro args fit
    obtain _ | ⟨first, _ | ⟨second, _ | _⟩⟩ := fit
    obtain ⟨text, rfl⟩ := text_of_kind first
    obtain ⟨part, rfl⟩ := text_of_kind second
    exact fails_ok _
  · intro args
    exact gives_bind _ fun _ => gives_bind _ fun _ => gives_pure rfl

theorem join_sound : Sound functions[17] (natives Guarded)[17] := by
  apply at_least_sound
  · intro args enough
    have inside : 0 < args.length := by omega
    simp [Guarded.text_inside _ inside]
  · intro args enough kinds
    have inside : 0 < args.length := by omega
    obtain ⟨separator, text⟩ := text_of_kind (kinds args[0] (List.getElem_mem inside))
    have given : (textArg "join" args 0 : Result String) = .ok separator := by
      rw [text_arg_eq, List.getElem?_eq_getElem inside, text]
      rfl
    simp [given, fails_traverse]
  · intro args
    exact gives_bind _ fun _ => gives_bind _ fun _ => gives_pure rfl

theorem length_sound : Sound functions[18] (natives Guarded)[18] := by
  apply fixed_sound
  · intro args one
    simp [Guarded.text_inside, one]
  · intro args fit
    obtain ⟨s, rfl⟩ := text_args fit
    exact fails_ok _
  · intro args
    exact gives_bind _ fun _ => gives_pure rfl

theorem replacement_sound (name : String) (f : List Char → List Char → List Char → List Char) :
    Sound (replacement name f).function (replacement name f) := by
  apply fixed_sound
  · intro args three
    simp [Guarded.text_inside, three]
  · intro args fit
    obtain _ | ⟨first, _ | ⟨second, _ | ⟨third, _ | _⟩⟩⟩ := fit
    obtain ⟨text, rfl⟩ := text_of_kind first
    obtain ⟨old, rfl⟩ := text_of_kind second
    obtain ⟨new, rfl⟩ := text_of_kind third
    exact fails_ok _
  · intro args
    exact gives_bind _ fun _ => gives_bind _ fun _ => gives_bind _ fun _ => gives_pure rfl

theorem slice_args {args : List Value} (fit : Fit [.string, .number, .number] args) :
    ∃ s a b, args = [.text s, .number a, .number b] := by
  obtain _ | ⟨first, _ | ⟨second, _ | ⟨third, _ | _⟩⟩⟩ := fit
  obtain ⟨s, rfl⟩ := text_of_kind first
  obtain ⟨a, rfl⟩ := number_of_kind second
  obtain ⟨b, rfl⟩ := number_of_kind third
  exact ⟨s, a, b, rfl⟩

theorem slice_sound : Sound functions[21] (natives Guarded)[21] := by
  refine verified_sound (fixed_sound ?_ ?_ ?_) ?_ ?_
  · intro args (three : args.length = 3)
    rw [Guarded.slice_bounds_inside three, Guarded.text_inside _ (by omega)]
    cases (textArg "slice" args 0 : Result String) with
    | error e => rfl
    | ok text =>
      cases bounds : (sliceBounds args : Result (Nat × Nat)) with
      | error e => rfl
      | ok found =>
        obtain ⟨_, -, -, -, ordered, -⟩ := slice_bounds_ok bounds
        change ((minus found.2 found.1 : Guarded Nat) >>= fun size => _) =
          ofResult ((minus found.2 found.1 : Result Nat) >>= fun size => _)
        rw [Guarded.minus_inside ordered, Guarded.of_result_bind]
        rfl
  · intro args fit
    obtain ⟨s, a, b, rfl⟩ := slice_args fit
    have text : (textArg "slice" [.text s, .number a, .number b] 0 : Result String) = .ok s := rfl
    simp [text, slice_bounds_own]
  · intro args
    exact gives_bind _ fun _ => gives_bind _ fun _ => gives_bind _ fun _ => gives_pure rfl
  · intro args (three : args.length = 3)
    simp [Guarded.slice_bounds_inside three]
  · intro args allowed fit
    obtain ⟨s, a, b, rfl⟩ := slice_args (counted_args rfl allowed fit)
    simp [slice_bounds_own]

theorem functions_sound : List.Forall₂ Sound functions (natives Guarded) := by
  rw [functions, List.forall₂_map_left_iff, natives, natives]
  simp only [List.forall₂_cons]
  exact ⟨of_number_sound fun _ => fails_ok _,
    of_number_sound fun _ => fails_ok _,
    of_number_sound fun _ => fails_ok _,
    of_number_sound fun _ => fails_ok _,
    pow_sound,
    round_sound,
    extremum_sound _ _,
    extremum_sound _ _,
    root_sound,
    of_number_sound (root_own 3),
    through_float_sound _ _,
    positive_sound _ _,
    positive_sound _ _,
    positive_sound _ _,
    to_number_sound,
    concat_sound,
    contains_sound,
    join_sound,
    length_sound,
    replacement_sound _ _,
    replacement_sound _ _,
    slice_sound,
    .nil⟩

theorem guarded_call {f : Function} {n : Native Guarded} (sound : Sound f n) (args : List Value) :
    Guarded.call f n args = ofResult (f.call args).outcome := by
  by_cases allowed : f.Allows args
  · rw [Guarded.call, sound.verifiesInside args allowed, sound.computesInside args allowed,
      Function.call, Function.allowed_iff.mpr allowed]
    cases f.checkTypes args with
    | error e => rfl
    | ok u =>
      change ((ofResult (f.verify args).outcome : Guarded Unit) >>= fun _ => _) =
        ofResult (f.verify args >>= fun _ => f.invoke args).outcome
      rw [Traced.outcome_bind]
      cases (f.verify args).outcome <;> rfl
  · rw [Guarded.call, Function.call, Function.refused_count allowed]
    rfl

theorem call_own {f : Function} {n : Native Guarded} (sound : Sound f n) (args : List Value) :
    Fails Error.Own (f.call args).outcome := by
  obtain ⟨t, called⟩ := f.called_total args
  rw [Function.called_eq called]
  rcases called with refused | ⟨allowed, refused, first⟩ | ⟨allowed, fit, verifies, rejected⟩ |
    ⟨allowed, fit, verified⟩
  · exact (fails_error _).mpr nofun
  · exact (fails_error _).mpr nofun
  · have own := sound.verifiesOwn args allowed fit
    rw [Function.verify, verifies] at own
    dsimp only at own
    rw [rejected] at own
    rintro e ⟨⟩
    exact own e rfl
  · exact sound.computesOwn args allowed fit

theorem call_returns {f : Function} {n : Native Guarded} (sound : Sound f n) (args : List Value) :
    Gives f.returns (f.call args).outcome := by
  obtain ⟨t, called⟩ := f.called_total args
  rw [Function.called_eq called]
  rcases called with refused | ⟨allowed, refused, first⟩ | ⟨allowed, fit, verifies, rejected⟩ |
    ⟨allowed, fit, verified⟩
  · exact nofun
  · exact nofun
  · exact nofun
  · exact sound.returns args

theorem invoked_call {f : Function} {args : List Value}
    (invoked : .invoked f.name args ∈ (f.call args).events) :
    f.Allows args ∧ f.KindsFit args ∧ f.Verifies args ∧ (f.call args).outcome = f.compute args := by
  obtain ⟨t, called⟩ := f.called_total args
  have same := Function.called_eq called
  rw [same] at invoked ⊢
  rcases called with refused | ⟨allowed, refused, first⟩ | ⟨allowed, fit, verifies, rejected⟩ |
    ⟨allowed, fit, verified⟩
  · cases invoked
  · cases invoked
  · simp at invoked
  · exact ⟨allowed, fit, verified, rfl⟩

theorem round_returns {args : List Value} (allowed : functions[5].Allows args)
    (fit : functions[5].KindsFit args) (verified : functions[5].Verifies args) :
    ∃ v, functions[5].compute args = .ok v := by
  obtain ⟨d, places, rfl⟩ := two_number_args (counted_args rfl allowed fit)
  obtain ⟨n, found, -⟩ := bind_ok (verified _ rfl)
  refine ⟨.number (d.rescale n .halfAwayFromZero).normalized, ?_⟩
  change (roundPlaces _ >>= fun places => _ : Result Value) = _
  rw [found]
  rfl

theorem slice_returns {args : List Value} (allowed : functions[21].Allows args)
    (fit : functions[21].KindsFit args) (verified : functions[21].Verifies args) :
    ∃ v, functions[21].compute args = .ok v := by
  obtain ⟨s, a, b, rfl⟩ := slice_args (counted_args rfl allowed fit)
  obtain ⟨⟨start, stop⟩, found, -⟩ := bind_ok (verified _ rfl)
  exact ⟨.text (cut s start stop), slice_computed found⟩

theorem named_places : ∀ i : Fin functions.length,
    functions[i].name = "round" ∨ functions[i].name = "slice" → i.val = 5 ∨ i.val = 21 := by
  decide +kernel

theorem repeated_returns {f : Function} (member : f ∈ functions)
    (named : f.name = "round" ∨ f.name = "slice") {args : List Value}
    (invoked : .invoked f.name args ∈ (f.call args).events) :
    ∃ v, (f.call args).outcome = .ok v := by
  obtain ⟨allowed, fit, verified, outcome⟩ := invoked_call invoked
  rw [outcome]
  obtain ⟨i, inside, rfl⟩ := List.mem_iff_getElem.mp member
  obtain rfl | rfl := named_places ⟨i, inside⟩ named
  · exact round_returns allowed fit verified
  · exact slice_returns allowed fit verified

structure Kept (f : Function) (n : Native Guarded) (args : List Value) : Prop where
  unbroken : Guarded.call f n args = ofResult (f.call args).outcome
  own : ∀ e, (f.call args).outcome = .error (.failed e) → e.Own
  returned : ∀ v, (f.call args).outcome = .ok v → f.returns.accepts v = true

/-- Whatever arguments a default function is called with, it reads none behind the last one and
takes no length from a smaller one; its errors never say that an argument is not a number or not a
text, and what it returns is of the kind that it declares. Where the function itself computes again
what the verifier has computed, it does not fail anymore. -/
theorem defaults_keep_contracts :
    List.Forall₂ (fun f n => ∀ args, Kept f n args) functions (natives Guarded) ∧
    ∀ f ∈ functions, f.name = "round" ∨ f.name = "slice" → ∀ args,
      .invoked f.name args ∈ (f.call args).events → ∃ v, (f.call args).outcome = .ok v := by
  refine ⟨functions_sound.imp ?_, ?_⟩
  · intro f n sound args
    exact ⟨guarded_call sound args, call_own sound args, call_returns sound args⟩
  · intro f member named args invoked
    exact repeated_returns member named invoked

theorem defaults_keep_contracts_of_slice :
    let args := [.text "abc", .number ⟨1, 0⟩, .number ⟨2, 0⟩]
    .invoked "slice" args ∈ (functions[21].call args).events ∧
      ∃ v, (functions[21].call args).outcome = .ok v := by
  intro args
  have invoked : .invoked "slice" args ∈ (functions[21].call args).events := by decide +kernel
  exact ⟨invoked, defaults_keep_contracts.2 functions[21] (List.getElem_mem _) (.inr rfl) args
    invoked⟩

example :
    Guarded.call (fixed "pow" [.number] .number fun _ => .ok (.boolean true)).function
      (natives Guarded)[4] [.number ⟨2, 0⟩] = Guarded.broken := rfl

end Catalogue

end Formula
