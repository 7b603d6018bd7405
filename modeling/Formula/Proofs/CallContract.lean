import Formula.Proofs.HostCalls

set_option autoImplicit false

namespace Formula

namespace Arity

def Allows : Arity → Nat → Prop
  | .exact n, count => count = n
  | .variadic least most, count => least ≤ count ∧ ∀ bound, most = some bound → count ≤ bound

theorem accepts_iff (arity : Arity) (count : Nat) :
    arity.accepts count = true ↔ arity.Allows count := by
  rcases arity with n | ⟨least, _ | bound⟩
  · exact beq_iff_eq.trans eq_comm
  · simp [accepts, Allows]
  · simp [accepts, Allows]

end Arity

namespace Function

inductive Expects (f : Function) : Nat → Kind → Prop where
  | element {i : Nat} {kind : Kind} {others : List Kind} (variadic : f.arity.isVariadic = true)
      (declared : f.params = kind :: others) : Expects f i kind
  | place {i : Nat} {kind : Kind} (counted : f.arity.isVariadic = false)
      (declared : f.params[i]? = some kind) : Expects f i kind

theorem expects_iff (f : Function) (i : Nat) (kind : Kind) :
    f.Expects i kind ↔ f.paramAt? i = some kind := by
  rw [paramAt?]
  constructor
  · rintro (⟨variadic, declared⟩ | ⟨counted, declared⟩)
    · rw [if_pos variadic, declared, List.head?_cons]
    · rw [counted]
      exact declared
  · by_cases variadic : f.arity.isVariadic = true
    · rw [if_pos variadic, List.head?_eq_some_iff]
      rintro ⟨others, declared⟩
      exact .element variadic declared
    · rw [if_neg variadic]
      exact .place (Bool.eq_false_iff.mpr variadic)

structure Refuses (f : Function) (args : List Value) (i : Nat) (expected : Kind) (arg : Value) :
    Prop where
  given : args[i]? = some arg
  declared : f.Expects i expected
  other : expected.accepts arg = false

def Allows (f : Function) (args : List Value) : Prop := f.arity.Allows args.length

def KindsFit (f : Function) (args : List Value) : Prop :=
  ∀ i expected arg, ¬ f.Refuses args i expected arg

def Verifies (f : Function) (args : List Value) : Prop :=
  ∀ verifier, f.verifier = some verifier → verifier args = .ok ()

def verification (f : Function) (args : List Value) : List Event :=
  f.verifier.toList.map fun _ => .verified f.name args

-- All that a call can come to, with what of the host is run on the way.
inductive Called (f : Function) (args : List Value) : Traced Value → Prop where
  | count (refused : ¬ f.Allows args) :
      Called f args ⟨.error (.of (.arityMismatch f.name f.arity args.length)), []⟩
  | kind {i : Nat} {expected : Kind} {arg : Value} (allowed : f.Allows args)
      (refused : f.Refuses args i expected arg)
      (first : ∀ j < i, ∀ expected arg, ¬ f.Refuses args j expected arg) :
      Called f args ⟨.error (.of (.typeMismatch f.name (i + 1) expected arg.kind)), []⟩
  | verifier {verifier : List Value → Result Unit} {e : Stop Error} (allowed : f.Allows args)
      (fit : f.KindsFit args) (own : f.verifier = some verifier)
      (rejected : verifier args = .error e) : Called f args ⟨.error e, [.verified f.name args]⟩
  | native (allowed : f.Allows args) (fit : f.KindsFit args) (verified : f.Verifies args) :
      Called f args ⟨f.compute args, f.verification args ++ [.invoked f.name args]⟩

section

variable {f : Function} {args : List Value}

theorem allowed_iff : f.checkArity args = .ok () ↔ f.Allows args := by
  rw [Allows, ← Arity.accepts_iff]
  refine ⟨checked_count, fun accepted => ?_⟩
  rw [checkArity, if_pos accepted]

theorem refused_count (refused : ¬ f.Allows args) :
    f.checkArity args = .error (.of (.arityMismatch f.name f.arity args.length)) := by
  rw [Allows, ← Arity.accepts_iff] at refused
  rw [checkArity, if_neg refused]

structure FirstRefused (f : Function) (index : Nat) (args : List Value) (i : Nat)
    (expected : Kind) (arg : Value) : Prop where
  given : args[i]? = some arg
  declared : f.paramAt? (index + i) = some expected
  other : expected.accepts arg = false
  earlier : ∀ j < i, ∀ kind arg, args[j]? = some arg → f.paramAt? (index + j) = some kind →
    kind.accepts arg = true

theorem first_refused_cons {index i : Nat} {expected : Kind} {head arg : Value}
    (passed : ∀ kind, f.paramAt? index = some kind → kind.accepts head = true)
    (first : f.FirstRefused (index + 1) args i expected arg) :
    f.FirstRefused index (head :: args) (i + 1) expected arg := by
  refine ⟨first.given, ?_, first.other, ?_⟩
  · rw [← Nat.add_assoc, Nat.add_right_comm]
    exact first.declared
  · rintro (_ | j) before kind arg' given declared
    · cases given
      exact passed kind declared
    · rw [← Nat.add_assoc, Nat.add_right_comm] at declared
      exact first.earlier j (Nat.lt_of_succ_lt_succ before) kind arg' given declared

theorem refused_from {index : Nat} {e : Stop Error} (failed : f.checkTypesFrom index args = .error e) :
    ∃ i expected arg, f.FirstRefused index args i expected arg ∧
      e = .of (.typeMismatch f.name (index + i + 1) expected arg.kind) := by
  induction args generalizing index with
  | nil => cases failed
  | cons head args ih =>
    by_cases passed : ∀ kind, f.paramAt? index = some kind → kind.accepts head = true
    · have rest : f.checkTypesFrom (index + 1) args = .error e := by
        rw [checkTypesFrom] at failed
        cases declared : f.paramAt? index with
        | none => rwa [declared] at failed
        | some expected =>
          rw [declared] at failed
          dsimp only at failed
          rwa [if_pos (passed expected declared)] at failed
      obtain ⟨i, expected, arg, first, same⟩ := ih rest
      refine ⟨i + 1, expected, arg, first_refused_cons passed first, ?_⟩
      rw [same, Nat.add_right_comm index 1 i]
      rfl
    · obtain ⟨expected, refused⟩ := not_forall.mp passed
      obtain ⟨declared, other⟩ := Classical.not_imp.mp refused
      rw [checkTypesFrom, declared] at failed
      dsimp only at failed
      rw [if_neg other] at failed
      cases failed
      refine ⟨0, expected, head, ⟨rfl, declared, Bool.eq_false_iff.mpr other, ?_⟩, rfl⟩
      intro j before
      exact absurd before (Nat.not_lt_zero j)

theorem kinds_checked (f : Function) (args : List Value) :
    (f.checkTypes args = .ok () ∧ f.KindsFit args) ∨
      ∃ i expected arg, f.Refuses args i expected arg ∧
        (∀ j < i, ∀ expected arg, ¬ f.Refuses args j expected arg) ∧
        f.checkTypes args = .error (.of (.typeMismatch f.name (i + 1) expected arg.kind)) := by
  cases checked : f.checkTypes args with
  | ok u =>
    refine .inl ⟨rfl, ?_⟩
    rintro i expected arg ⟨given, declared, other⟩
    have accepted := checked_kinds checked i arg expected given
      (by rwa [Nat.zero_add, ← expects_iff])
    rw [accepted] at other
    cases other
  | error e =>
    obtain ⟨i, expected, arg, ⟨given, declared, other, earlier⟩, rfl⟩ := refused_from checked
    rw [Nat.zero_add] at declared ⊢
    refine .inr ⟨i, expected, arg, ⟨given, (expects_iff f i expected).mpr declared, other⟩, ?_, rfl⟩
    rintro j before kind arg' ⟨given', declared', other'⟩
    have accepted := earlier j before kind arg' given' (by rwa [Nat.zero_add, ← expects_iff])
    rw [accepted] at other'
    cases other'

theorem kinds_fit_checked (fit : f.KindsFit args) : f.checkTypes args = .ok () := by
  rcases kinds_checked f args with ⟨checked, -⟩ | ⟨i, expected, arg, refused, -⟩
  · exact checked
  · exact absurd refused (fit i expected arg)

theorem refuses_unique {i : Nat} {expected expected' : Kind} {arg arg' : Value}
    (refused : f.Refuses args i expected arg) (refused' : f.Refuses args i expected' arg') :
    expected = expected' ∧ arg = arg' := by
  have declared := (expects_iff f i expected).mp refused.declared
  have declared' := (expects_iff f i expected').mp refused'.declared
  exact ⟨Option.some.inj (declared.symm.trans declared'),
    Option.some.inj (refused.given.symm.trans refused'.given)⟩

theorem refused_kind {i : Nat} {expected : Kind} {arg : Value}
    (refused : f.Refuses args i expected arg)
    (first : ∀ j < i, ∀ expected arg, ¬ f.Refuses args j expected arg) :
    f.checkTypes args = .error (.of (.typeMismatch f.name (i + 1) expected arg.kind)) := by
  rcases kinds_checked f args with ⟨-, fit⟩ | ⟨j, expected', arg', refused', first', reported⟩
  · exact absurd refused (fit i expected arg)
  · have same : j = i := by
      rcases Nat.lt_trichotomy j i with earlier | same | later
      · exact absurd refused' (first j earlier expected' arg')
      · exact same
      · exact absurd refused (first' i later expected arg)
    subst same
    obtain ⟨rfl, rfl⟩ := refuses_unique refused refused'
    exact reported

theorem checked_call (count : f.checkArity args = .ok ()) (kinds : f.checkTypes args = .ok ()) :
    f.call args = f.verify args >>= fun _ => f.invoke args := by
  rw [call, count, kinds]
  rfl

theorem verify_passed (verified : f.Verifies args) :
    f.verify args = ⟨.ok (), f.verification args⟩ := by
  rw [verify, verification]
  cases own : f.verifier with
  | none => rfl
  | some verifier =>
    dsimp only
    rw [verified verifier own]
    rfl

theorem called_eq {t : Traced Value} (called : f.Called args t) : f.call args = t := by
  rcases called with refused | ⟨allowed, refused, first⟩ | ⟨allowed, fit, own, rejected⟩ |
    ⟨allowed, fit, verified⟩
  · rw [call, refused_count refused]
    rfl
  · rw [call, allowed_iff.mpr allowed, refused_kind refused first]
    rfl
  · rw [checked_call (allowed_iff.mpr allowed) (kinds_fit_checked fit), verify, own]
    dsimp only
    rw [rejected]
    rfl
  · rw [checked_call (allowed_iff.mpr allowed) (kinds_fit_checked fit), verify_passed verified]
    rfl

end

theorem called_total (f : Function) (args : List Value) : ∃ t, f.Called args t := by
  by_cases allowed : f.Allows args
  · rcases kinds_checked f args with ⟨-, fit⟩ | ⟨i, expected, arg, refused, first, -⟩
    · by_cases verified : f.Verifies args
      · exact ⟨_, .native allowed fit verified⟩
      · obtain ⟨verifier, unverified⟩ := not_forall.mp verified
        obtain ⟨own, not_ok⟩ := Classical.not_imp.mp unverified
        cases rejected : verifier args with
        | ok u => exact absurd rejected not_ok
        | error e => exact ⟨_, .verifier allowed fit own rejected⟩
    · exact ⟨_, .kind allowed refused first⟩
  · exact ⟨_, .count allowed⟩

/-- A call looks at the number of the arguments, at their kinds and at what the verifier says, in
this order, and fails with the first of them that refuses; the function itself runs if and only if
all three admit the arguments, and then its result is that of the call. The verifier runs only
behind the other two. -/
theorem call_keeps_contract (f : Function) (args : List Value) :
    (∀ t, f.Called args t ↔ f.call args = t) ∧
    (.invoked f.name args ∈ (f.call args).events ↔
      f.Allows args ∧ f.KindsFit args ∧ f.Verifies args) ∧
    (.verified f.name args ∈ (f.call args).events ↔
      f.verifier.isSome = true ∧ f.Allows args ∧ f.KindsFit args) := by
  obtain ⟨t, called⟩ := called_total f args
  have outcome := called_eq called
  refine ⟨fun t' => ⟨called_eq, ?_⟩, ?_⟩
  · rintro rfl
    rwa [outcome]
  · rw [outcome]
    rcases called with refused | ⟨allowed, refused, first⟩ | ⟨allowed, fit, own, rejected⟩ |
      ⟨allowed, fit, verified⟩
    · simp [refused]
    · have unfit : ¬ f.KindsFit args := fun fit => fit _ _ _ refused
      simp [unfit]
    · have unverified : ¬ f.Verifies args := by
        intro verified
        rw [verified _ own] at rejected
        cases rejected
      simp [allowed, fit, unverified, own]
    · cases own : f.verifier <;> simp [verification, allowed, fit, verified, own]

example :
    let sum : Function :=
      ⟨"sum", .variadic 1 none, [.number], .number, fun _ => .ok (.number .zero), none⟩
    (sum.call [.number .zero, .text "", .boolean true]).outcome =
      .error (.of (.typeMismatch "sum" 2 .number .string)) := rfl

end Function

end Formula
