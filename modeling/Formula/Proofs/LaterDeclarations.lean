import Formula.Proofs.Declarations
import Formula.Proofs.FailingNode
import Mathlib.Data.List.TakeWhile

set_option autoImplicit false

namespace Formula

open Environment (Extends Step session)

theorem Traced.bind_same {α β : Type} {t t' : Traced α} {next next' : α → Traced β} (first : t' = t)
    (further : ∀ a, t.outcome = .ok a → next' a = next a) : t' >>= next' = t >>= next := by
  subst first
  change t'.andThen next' = t'.andThen next
  unfold andThen
  cases outcome : t'.outcome with
  | error e => rfl
  | ok a =>
    dsimp only
    rw [further a outcome]

namespace Expr

def Undeclared (env : Environment) : Expr → Prop
  | name n _ => env.get? n = none
  | call n _ _ => env.get? n = none
  | _ => False

def Known (env : Environment) (order : List Expr) : Prop :=
  ∀ n e, StopsIn env order n e → ¬ Undeclared env n

section

variable {env : Environment} {front order : List Expr}

theorem known_before (known : Known env (front ++ order)) : Known env front :=
  fun n e stops => known n e (stops_before stops order)

theorem known_behind (known : Known env (front ++ order)) (fine : ∀ m ∈ front, m.HasValue env) :
    Known env order :=
  fun n e stops => known n e (stops_behind fine stops)

end

theorem declared_of_known {env : Environment} {n : Expr} {e : Stop Error} (known : Known env [n])
    (faults : Faults env n e) : ¬ Undeclared env n :=
  known n e ⟨[], [], rfl, nofun, faults⟩

theorem look_up_extends {env next : Environment} (extended : Extends env next) {n : String}
    {span : Span} (known : Known env [.name n span]) : lookUp next n span = lookUp env n span := by
  cases bound : env.get? n with
  | some symbol => rw [lookUp, lookUp, bound, extended n symbol bound]
  | none =>
    have faults : Faults env (.name n span) (.located (.unknownVariable n) span) :=
      .name (by rw [lookUp, bound])
    exact absurd bound (declared_of_known known faults)

theorem look_up_function_extends {env next : Environment} (extended : Extends env next) {n : String}
    {args : List Expr} {span : Span} (known : Known env ((call n args span).visits env)) :
    lookUpFunction next n span = lookUpFunction env n span := by
  cases bound : env.get? n with
  | some symbol => rw [lookUpFunction, lookUpFunction, bound, extended n symbol bound]
  | none =>
    have missing : lookUpFunction env n span = .error (.located (.unknownFunction n) span) := by
      rw [lookUpFunction, bound]
    rw [visits, missing] at known
    exact absurd bound (declared_of_known known (.callee missing))

-- By recursion on the tree. What is known of an order is known of its beginning, and, where that
-- has values, of the rest.
mutual

theorem eval_extends {env next : Environment} (extended : Extends env next) (e : Expr)
    (known : Known env (e.visits env)) : e.eval next = e.eval env := by
  match e with
  | literal value span => rw [eval, eval]
  | name n span =>
    rw [eval, eval, look_up_extends extended known]
  | group inner span =>
    rw [visits] at known
    rw [eval, eval]
    exact eval_extends extended inner (known_before known)
  | unary operator operand span =>
    rw [visits] at known
    rw [eval, eval]
    exact Traced.bind_same (eval_extends extended operand (known_before known)) fun _ _ => rfl
  | binary operator left right span =>
    rw [visits] at known
    rw [eval, eval]
    apply Traced.bind_same (eval_extends extended left (known_before known))
    intro l value
    have later := known_behind known ((eval_follows env left).value l value)
    exact Traced.bind_same (eval_extends extended right (known_before later)) fun _ _ => rfl
  | logical operator left right span =>
    rw [visits, List.append_assoc] at known
    rw [eval, eval]
    apply Traced.bind_same (eval_extends extended left (known_before known))
    intro l value
    have later := known_before (known_behind known ((eval_follows env left).value l value))
    rw [value, behind] at later
    have needed (undecided : operator.decides l = false) : right.eval next = right.eval env := by
      rw [if_neg (Bool.eq_false_iff.mp undecided)] at later
      exact eval_extends extended right later
    cases operator <;> cases truth : l.isTruthy
    · rfl
    · rw [needed (by rw [LogicalOp.decides, truth, Bool.not_true])]
    · rw [needed truth]
    · rfl
  | ternary condition whenTrue whenFalse span =>
    rw [visits, List.append_assoc] at known
    rw [eval, eval]
    apply Traced.bind_same (eval_extends extended condition (known_before known))
    intro c value
    have later := known_before (known_behind known ((eval_follows env condition).value c value))
    rw [value, behind] at later
    by_cases truth : c.isTruthy = true
    · rw [if_pos truth] at later
      rw [if_pos truth, if_pos truth]
      exact eval_extends extended whenTrue later
    · rw [if_neg truth] at later
      rw [if_neg truth, if_neg truth]
      exact eval_extends extended whenFalse later
  | call n args span =>
    rw [eval, eval, look_up_function_extends extended known]
    apply Traced.bind_same rfl
    intro f found
    change lookUpFunction env n span = .ok f at found
    rw [visits, found, behind] at known
    exact Traced.bind_same (eval_all_extends extended args (known_before known)) fun _ _ => rfl

theorem eval_all_extends {env next : Environment} (extended : Extends env next) (es : List Expr)
    (known : Known env (visitsAll env es)) : evalAll next es = evalAll env es := by
  match es with
  | [] => rw [evalAll, evalAll]
  | e :: es =>
    rw [visitsAll] at known
    rw [evalAll, evalAll]
    apply Traced.bind_same (eval_extends extended e (known_before known))
    intro v value
    have later := known_behind known ((eval_follows env e).value v value)
    exact Traced.bind_same (eval_all_extends extended es later) fun _ _ => rfl

end

theorem known_of_outcome {env : Environment} {e : Expr}
    (declared : ∀ err, (e.eval env).outcome = .error err →
      ∃ n, StopsIn env (e.visits env) n err ∧ ¬ Undeclared env n) : Known env (e.visits env) := by
  intro n err stops
  have course := eval_follows env e
  cases outcome : (e.eval env).outcome with
  | ok v =>
    obtain ⟨before, after, order, fine, faults⟩ := stops
    have visited : n ∈ e.visits env := by rw [order]; simp
    exact absurd visited (not_passed (course.value v outcome) faults)
  | error err' =>
    obtain ⟨m, stops', named⟩ := declared err' outcome
    rw [stops_unique stops stops']
    exact named

theorem undeclared_cause {env : Environment} {n : Expr} {stop : Stop Error}
    (missing : Undeclared env n) (faults : Faults env n stop) :
    (∃ name span, stop = .located (.unknownVariable name) span) ∨
      ∃ name span, stop = .located (.unknownFunction name) span := by
  cases faults with
  | name failed =>
    rw [lookUp, show env.get? _ = none from missing] at failed
    cases failed
    exact .inl ⟨_, _, rfl⟩
  | unary | binary => exact missing.elim
  | callee failed =>
    rw [lookUpFunction, show env.get? _ = none from missing] at failed
    cases failed
    exact .inr ⟨_, _, rfl⟩
  | host found | result found =>
    rw [lookUpFunction, show env.get? _ = none from missing] at found
    cases found

end Expr

/-- Later declarations change no answer. An evaluation that gives a value, or that fails at a node
other than a name that is not bound, gives the same value or the same error after any steps, with the
same calls of the host on the same arguments in the same order. -/
theorem later_declarations_change_nothing {env : Environment} {e : Expr}
    (declared : ∀ err, (e.eval env).outcome = .error err →
      ∃ n, Expr.StopsIn env (e.visits env) n err ∧ ¬ Expr.Undeclared env n) (steps : List Step) :
    e.eval (session env steps) = e.eval env :=
  Expr.eval_extends (Environment.session_extends env steps) e (Expr.known_of_outcome declared)

theorem later_declarations_change_nothing_of_division :
    ∃ e, parse "(1 > 0 || later(1)) && 1 / 0 > later" = .ok e ∧
      (e.eval Catalogue.environment).outcome = .error (.located .divisionByZero ⟨23, 28⟩) ∧
      (∃ n, Expr.StopsIn Catalogue.environment (e.visits Catalogue.environment) n
        (.located .divisionByZero ⟨23, 28⟩) ∧ ¬ Expr.Undeclared Catalogue.environment n) ∧
      e.eval (session Catalogue.environment [.declareVariable "later" (.boolean false), .install,
        .declareVariable "max" (.number ⟨0, 0⟩), .declareValue "y" "later || 1 > 0"]) =
          e.eval Catalogue.environment := by
  have outcome : (evaluateTraced "(1 > 0 || later(1)) && 1 / 0 > later"
      Catalogue.environment).outcome = .error (.located .divisionByZero ⟨23, 28⟩) := by
    decide +kernel
  rw [evaluateTraced] at outcome
  cases parsed : parse "(1 > 0 || later(1)) && 1 / 0 > later" with
  | error e =>
    have read : (parse "(1 > 0 || later(1)) && 1 / 0 > later").isOk = true := by decide +kernel
    rw [parsed] at read
    cases read
  | ok e =>
    rw [parsed] at outcome
    obtain ⟨n, before, after, order, fine, faults⟩ :=
      (Expr.eval_follows Catalogue.environment e).error _ outcome
    have declared : ¬ Expr.Undeclared Catalogue.environment n := by
      intro missing
      rcases Expr.undeclared_cause missing faults with ⟨_, _, cause⟩ | ⟨_, _, cause⟩ <;> cases cause
    have stops : ∃ n, Expr.StopsIn Catalogue.environment (e.visits Catalogue.environment) n
        (.located .divisionByZero ⟨23, 28⟩) ∧ ¬ Expr.Undeclared Catalogue.environment n :=
      ⟨n, ⟨before, after, order, fine, faults⟩, declared⟩
    refine ⟨e, rfl, outcome, stops, later_declarations_change_nothing ?_ _⟩
    intro err failed
    cases outcome.symm.trans failed
    exact stops

end Formula
