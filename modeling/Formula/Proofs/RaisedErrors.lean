import Formula.Proofs.FailurePlace

set_option autoImplicit false

namespace Formula

inductive Function.Raises (f : Function) (args : List Value) (err : Error) : Prop where
  | verifier {verifier : List Value → Result Unit} (own : f.verifier = some verifier)
      (rejected : verifier args = .error (.failed err))
  | native (verified : ∀ verifier, f.verifier = some verifier → verifier args = .ok ())
      (failed : f.compute args = .error (.failed err))

def Cause.isMismatch : Cause → Bool
  | .arityMismatch _ _ _ | .typeMismatch _ _ _ _ => true
  | _ => false

theorem Function.verified_call {f : Function} {args : List Value}
    (count : f.checkArity args = .ok ()) (kinds : f.checkTypes args = .ok ())
    (verified : ∀ verifier, f.verifier = some verifier → verifier args = .ok ()) :
    (f.call args).outcome = f.compute args := by
  have passed : (f.verify args).outcome = .ok () := by
    rw [verify]
    cases own : f.verifier with
    | none => rfl
    | some verifier => exact verified verifier own
  rw [call, count, kinds, Traced.bind_from rfl, Traced.bind_from rfl, Traced.bind_from passed]
  rfl

theorem Function.rejected_call {f : Function} {args : List Value} {stop : Stop Error}
    (count : f.checkArity args = .ok ()) (kinds : f.checkTypes args = .ok ())
    {verifier : List Value → Result Unit} (own : f.verifier = some verifier)
    (rejected : verifier args = .error stop) : (f.call args).outcome = .error stop := by
  rw [call, count, kinds, Traced.bind_from rfl, Traced.bind_from rfl]
  apply Traced.outcome_stopped
  rw [verify, own]
  exact rejected

theorem call_raised {f : Function} {args : List Value} {err : Error}
    (count : f.checkArity args = .ok ()) (kinds : f.checkTypes args = .ok ())
    (raises : f.Raises args err) : (f.call args).outcome = .error (.failed err) := by
  cases raises with
  | verifier own rejected => exact Function.rejected_call count kinds own rejected
  | native verified failed => rw [Function.verified_call count kinds verified, failed]

theorem call_error_eq (f : Function) (span : Span) (e : Error) :
    callError f span e = ⟨e.cause, some (e.span.getD span),
      if e.cause.isMismatch && e.help.isNone then some ("signature: " ++ f.signature)
      else e.help⟩ := by
  obtain ⟨cause, place, help⟩ := e
  cases help with
  | some text =>
    rw [Option.isNone_some, Bool.and_false]
    cases cause <;> rfl
  | none => cases cause <;> rfl

namespace Expr

theorem eval_all_of_values {env : Environment} {es : List Expr} {values : List Value}
    (given : List.Forall₂ (fun e value => (e.eval env).outcome = .ok value) es values) :
    (evalAll env es).outcome = .ok values := by
  induction given with
  | nil => rfl
  | cons first _ ih =>
    rw [evalAll, Traced.bind_from first, Traced.bind_from ih]
    rfl

variable {env : Environment} {n : String} {args : List Expr} {f : Function} {values : List Value}
  {err : Error}

/-- A call fails with what the host raised: with its cause, with its place if it has one and else
with that of the call, and with its help, but a mismatch without help gets the signature. -/
theorem host_error_raised (found : env.get? n = some (.function f))
    (given : List.Forall₂ (fun arg value => (arg.eval env).outcome = .ok value) args values)
    (count : f.checkArity values = .ok ()) (kinds : f.checkTypes values = .ok ())
    (raises : f.Raises values err) (span : Span) :
    ∃ e, ((call n args span).eval env).outcome = .error (.failed e) ∧ e.cause = err.cause ∧
      e.span = some (err.span.getD span) ∧
      e.help = if err.cause.isMismatch && err.help.isNone then some ("signature: " ++ f.signature)
        else err.help := by
  have callee : lookUpFunction env n span = .ok f := by rw [lookUpFunction, found]
  have raised := call_raised count kinds raises
  refine ⟨callError f span err, ?_, ?_⟩
  · rw [eval_call callee, Traced.bind_from (eval_all_of_values given)]
    apply Traced.outcome_stopped
    rw [Traced.mapError, raised]
    rfl
  · rw [call_error_eq]
    exact ⟨rfl, rfl, rfl⟩

end Expr

def rejecting : Function :=
  ⟨"half", .exact 1, [.number], .number, fun args => .ok (args.headD (.boolean false)),
    some fun _ =>
      .error (.failed ⟨.invalidArgument "half" "too small", some ⟨5, 6⟩, some "try 2"⟩)⟩

def demanding : Function :=
  ⟨"picky", .exact 0, [], .any, fun _ => .error (.of (.arityMismatch "picky" (.exact 1) 0)), none⟩

def Environment.ofFunction (f : Function) : Environment :=
  ⟨[(f.name, .function f)], List.pairwise_singleton _ _⟩

theorem Expr.host_error_raised_of_rejection :
    (∃ e, ((call "half" [literal (.number ⟨1, 0⟩) ⟨5, 6⟩] ⟨0, 7⟩).eval
        (.ofFunction rejecting)).outcome = .error (.failed e) ∧
      e.cause = .invalidArgument "half" "too small" ∧ e.span = some ⟨5, 6⟩ ∧
      e.help = some "try 2") ∧
    ∃ e, ((call "picky" [] ⟨0, 7⟩).eval (.ofFunction demanding)).outcome = .error (.failed e) ∧
      e.cause = .arityMismatch "picky" (.exact 1) 0 ∧ e.span = some ⟨0, 7⟩ ∧
      e.help = some "signature: picky() -> any" := by
  constructor
  · have given : List.Forall₂ (fun arg value => (arg.eval (.ofFunction rejecting)).outcome =
        .ok value) [literal (.number ⟨1, 0⟩) ⟨5, 6⟩] [.number ⟨1, 0⟩] := .cons rfl .nil
    exact host_error_raised (f := rejecting) rfl given rfl rfl (.verifier rfl rfl) ⟨0, 7⟩
  · exact host_error_raised (f := demanding) rfl .nil rfl rfl (.native nofun rfl) ⟨0, 7⟩

/-- A mismatch that the host raises itself does not keep its missing help. -/
theorem Expr.raised_mismatch_gains_help :
    ¬ ∀ (env : Environment) (n : String) (args : List Expr) (span : Span) (f : Function)
      (values : List Value) (err : Error), env.get? n = some (.function f) →
      List.Forall₂ (fun arg value => (arg.eval env).outcome = .ok value) args values →
      f.checkArity values = .ok () → f.checkTypes values = .ok () → f.Raises values err →
      ∃ e, ((call n args span).eval env).outcome = .error (.failed e) ∧ e.cause = err.cause ∧
        e.help = err.help ∧ e.span = some (err.span.getD span) := by
  intro unchanged
  obtain ⟨e, failed, -, help, -⟩ := unchanged (.ofFunction demanding) "picky" [] ⟨0, 7⟩ demanding []
    (.of (.arityMismatch "picky" (.exact 1) 0)) rfl .nil rfl rfl (.native nofun rfl)
  have raised : ((call "picky" [] ⟨0, 7⟩).eval (.ofFunction demanding)).outcome =
      .error (.failed ⟨.arityMismatch "picky" (.exact 1) 0, some ⟨0, 7⟩,
        some "signature: picky() -> any"⟩) := by decide +kernel
  rw [raised] at failed
  cases failed
  cases help

end Formula
