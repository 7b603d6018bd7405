import Formula.Evaluation
import Formula.Proofs.Grammar

set_option autoImplicit false

namespace Formula

namespace Traced

variable {α β : Type}

theorem outcome_bind (t : Traced α) (next : α → Traced β) :
    (t >>= next).outcome = t.outcome >>= fun a => (next a).outcome := by
  change (t.andThen next).outcome = _
  rw [andThen]
  cases t.outcome <;> rfl

theorem bind_from {t : Traced α} {next : α → Traced β} {a : α} (value : t.outcome = .ok a) :
    (t >>= next).outcome = (next a).outcome := by
  rw [outcome_bind, value]
  rfl

end Traced

def LogicalOp.decides (operator : LogicalOp) (left : Value) : Bool :=
  match operator with
  | .and => !left.isTruthy
  | .or => left.isTruthy

namespace Expr

def HasValue (env : Environment) (e : Expr) : Prop := ∃ v, (e.eval env).outcome = .ok v

def behind {α : Type} (outcome : Result α) (next : α → List Expr) : List Expr :=
  match outcome with
  | .ok a => next a
  | .error _ => []

mutual

-- The nodes in the order of their operations. A right operand that the left one makes needless and
-- a branch that is not selected have no place in it, and neither have the arguments of a call whose
-- name is not that of a function. The order goes on behind a node that fails.
def visits (env : Environment) : Expr → List Expr
  | literal value span => [literal value span]
  | name n span => [name n span]
  | group inner span => visits env inner ++ [group inner span]
  | unary operator operand span => visits env operand ++ [unary operator operand span]
  | binary operator left right span =>
    visits env left ++ (visits env right ++ [binary operator left right span])
  | logical operator left right span =>
    visits env left ++
      behind (left.eval env).outcome (fun l => if operator.decides l then [] else visits env right)
      ++ [logical operator left right span]
  | ternary condition whenTrue whenFalse span =>
    visits env condition ++
      behind (condition.eval env).outcome
        (fun c => if c.isTruthy then visits env whenTrue else visits env whenFalse)
      ++ [ternary condition whenTrue whenFalse span]
  | call n args span =>
    behind (lookUpFunction env n span) (fun _ => visitsAll env args) ++ [call n args span]

def visitsAll (env : Environment) : List Expr → List Expr
  | [] => []
  | e :: es => visits env e ++ visitsAll env es

end

theorem mem_visits_all {env : Environment} {n : Expr} {es : List Expr} :
    n ∈ visitsAll env es ↔ ∃ e ∈ es, n ∈ e.visits env := by
  induction es with
  | nil => simp [visitsAll]
  | cons e es ih => simp [visitsAll, ih]

theorem behind_member {α : Type} {outcome : Result α} {next : α → List Expr} {n : Expr}
    (member : n ∈ behind outcome next) : ∃ a, n ∈ next a := by
  cases outcome with
  | ok a => exact ⟨a, member⟩
  | error e => cases member

theorem visited_below {env : Environment} {e n : Expr} (visited : n ∈ e.visits env) :
    n = e ∨ ∃ child ∈ e.children, n ∈ child.visits env := by
  cases e with
  | literal | name => exact .inl (List.mem_singleton.mp visited)
  | group inner span =>
    simp only [visits, List.mem_append, List.mem_singleton] at visited
    simpa [children] using visited.symm
  | unary operator operand span =>
    simp only [visits, List.mem_append, List.mem_singleton] at visited
    simpa [children] using visited.symm
  | binary operator left right span =>
    simp only [visits, List.mem_append, List.mem_singleton] at visited
    rcases visited with first | second | own
    · exact .inr ⟨left, by simp [children], first⟩
    · exact .inr ⟨right, by simp [children], second⟩
    · exact .inl own
  | logical operator left right span =>
    simp only [visits, List.mem_append, List.mem_singleton] at visited
    rcases visited with (first | second) | own
    · exact .inr ⟨left, by simp [children], first⟩
    · obtain ⟨l, second⟩ := behind_member second
      split at second
      · cases second
      · exact .inr ⟨right, by simp [children], second⟩
    · exact .inl own
  | ternary condition whenTrue whenFalse span =>
    simp only [visits, List.mem_append, List.mem_singleton] at visited
    rcases visited with (first | selected) | own
    · exact .inr ⟨condition, by simp [children], first⟩
    · obtain ⟨c, selected⟩ := behind_member selected
      split at selected
      · exact .inr ⟨whenTrue, by simp [children], selected⟩
      · exact .inr ⟨whenFalse, by simp [children], selected⟩
    · exact .inl own
  | call n args span =>
    simp only [visits, List.mem_append, List.mem_singleton] at visited
    rcases visited with given | own
    · obtain ⟨_, given⟩ := behind_member given
      exact .inr (mem_visits_all.mp given)
    · exact .inl own

theorem visited_node {env : Environment} {n : Expr} (e : Expr) (visited : n ∈ e.visits env) :
    n ∈ e.nodes := by
  rcases visited_below visited with own | ⟨child, below, visited⟩
  · exact mem_nodes.mpr (.inl own)
  · have smaller := child_smaller below
    exact mem_nodes.mpr (.inr ⟨child, below, visited_node child visited⟩)
termination_by sizeOf e

inductive Faults (env : Environment) : Expr → Stop Error → Prop where
  | name {n : String} {span : Span} {e : Stop Error} (failed : lookUp env n span = .error e) :
    Faults env (.name n span) e
  | unary {operator : UnaryOp} {operand : Expr} {span : Span} {v : Value} {e : Stop Error}
    (value : (operand.eval env).outcome = .ok v) (failed : applyUnary operator v span = .error e) :
    Faults env (.unary operator operand span) e
  | binary {operator : BinaryOp} {left right : Expr} {span : Span} {l r : Value} {e : Stop Error}
    (first : (left.eval env).outcome = .ok l) (second : (right.eval env).outcome = .ok r)
    (failed : applyBinary operator l r span = .error e) :
    Faults env (.binary operator left right span) e
  | callee {n : String} {args : List Expr} {span : Span} {e : Stop Error}
    (failed : lookUpFunction env n span = .error e) : Faults env (.call n args span) e
  | host {n : String} {args : List Expr} {span : Span} {f : Function} {values : List Value}
    {e : Stop Error} (found : lookUpFunction env n span = .ok f)
    (given : (evalAll env args).outcome = .ok values) (failed : (f.call values).outcome = .error e) :
    Faults env (.call n args span) (e.map (callError f span))
  | result {n : String} {args : List Expr} {span : Span} {f : Function} {values : List Value}
    {v : Value} {e : Stop Error} (found : lookUpFunction env n span = .ok f)
    (given : (evalAll env args).outcome = .ok values) (called : (f.call values).outcome = .ok v)
    (failed : callResult n span v = .error e) : Faults env (.call n args span) e

def StopsIn (env : Environment) (order : List Expr) (n : Expr) (e : Stop Error) : Prop :=
  ∃ before after, order = before ++ n :: after ∧ (∀ m ∈ before, m.HasValue env) ∧ Faults env n e

theorem stops_before {env : Environment} {order : List Expr} {n : Expr} {e : Stop Error}
    (stops : StopsIn env order n e) (more : List Expr) : StopsIn env (order ++ more) n e := by
  obtain ⟨before, after, rfl, values, faults⟩ := stops
  exact ⟨before, after ++ more, by simp, values, faults⟩

theorem stops_behind {env : Environment} {order : List Expr} {n : Expr} {e : Stop Error}
    {front : List Expr} (fine : ∀ m ∈ front, m.HasValue env) (stops : StopsIn env order n e) :
    StopsIn env (front ++ order) n e := by
  obtain ⟨before, after, rfl, values, faults⟩ := stops
  refine ⟨front ++ before, after, by simp, ?_, faults⟩
  intro m member
  rcases List.mem_append.mp member with early | late
  · exact fine m early
  · exact values m late

structure Follows {α : Type} (env : Environment) (t : Traced α) (order : List Expr) : Prop where
  value : ∀ a, t.outcome = .ok a → ∀ n ∈ order, n.HasValue env
  error : ∀ e, t.outcome = .error e → ∃ n, StopsIn env order n e

section

variable {α β : Type} {env : Environment}

theorem follows_pure (a : α) : Follows env (pure a) [] := by
  constructor
  · intro _ _ n member
    cases member
  · intro e failed
    cases failed

theorem follows_bind {t : Traced α} {next : α → Traced β} {order later : List Expr}
    (first : Follows env t order) (second : ∀ a, t.outcome = .ok a → Follows env (next a) later) :
    Follows env (t >>= next) (order ++ later) := by
  cases outcome : t.outcome with
  | error e =>
    have failed : (t >>= next).outcome = .error e := by
      rw [Traced.outcome_bind, outcome]
      rfl
    constructor
    · intro b value
      rw [failed] at value
      cases value
    · intro e' error
      rw [failed] at error
      cases error
      obtain ⟨n, stops⟩ := first.error e outcome
      exact ⟨n, stops_before stops later⟩
  | ok a =>
    have outcomes : (t >>= next).outcome = (next a).outcome := Traced.bind_from outcome
    have fine := first.value a outcome
    constructor
    · intro b value n member
      rcases List.mem_append.mp member with early | late
      · exact fine n early
      · exact (second a outcome).value b (outcomes ▸ value) n late
    · intro e error
      obtain ⟨n, stops⟩ := (second a outcome).error e (outcomes ▸ error)
      exact ⟨n, stops_behind fine stops⟩

theorem follows_own {t : Traced α} {n : Expr} (value : ∀ a, t.outcome = .ok a → n.HasValue env)
    (error : ∀ e, t.outcome = .error e → Faults env n e) : Follows env t [n] := by
  constructor
  · intro a ok m member
    rw [List.mem_singleton.mp member]
    exact value a ok
  · intro e failed
    exact ⟨n, [], [], rfl, nofun, error e failed⟩

theorem follows_last {t : Traced α} {n : Expr} {order : List Expr} (first : Follows env t order)
    (value : ∀ a, t.outcome = .ok a → n.HasValue env) : Follows env t (order ++ [n]) := by
  constructor
  · intro a ok m member
    rcases List.mem_append.mp member with early | late
    · exact first.value a ok m early
    · rw [List.mem_singleton.mp late]
      exact value a ok
  · intro e failed
    obtain ⟨m, stops⟩ := first.error e failed
    exact ⟨m, stops_before stops [n]⟩

end

theorem eval_call {env : Environment} {n : String} {args : List Expr} {span : Span} {f : Function}
    (found : lookUpFunction env n span = .ok f) :
    (call n args span).eval env = evalAll env args >>= fun values =>
      (f.call values).mapError (callError f span) >>= fun result =>
        .ofExcept (callResult n span result) := by
  rw [eval, found]
  rfl

theorem call_faults {env : Environment} {n : String} {args : List Expr} {span : Span} {f : Function}
    {values : List Value} {e : Stop Error} (found : lookUpFunction env n span = .ok f)
    (given : (evalAll env args).outcome = .ok values)
    (failed : ((f.call values).mapError (callError f span) >>= fun result =>
      .ofExcept (callResult n span result)).outcome = .error e) :
    Faults env (.call n args span) e := by
  rw [Traced.outcome_bind, Traced.mapError] at failed
  cases called : (f.call values).outcome with
  | error e' =>
    rw [called] at failed
    cases failed
    exact .host found given called
  | ok v =>
    rw [called] at failed
    exact .result found given called failed

mutual

theorem eval_follows (env : Environment) (e : Expr) : Follows env (e.eval env) (e.visits env) := by
  match e with
  | literal value span =>
    rw [visits]
    refine follows_own (fun v ok => ⟨v, ok⟩) ?_
    intro err failed
    rw [eval] at failed
    cases failed
  | name n span =>
    rw [visits]
    exact follows_own (fun v ok => ⟨v, ok⟩) fun err failed => .name failed
  | group inner span =>
    have below := eval_follows env inner
    rw [visits]
    exact follows_last below fun v ok => ⟨v, ok⟩
  | unary operator operand span =>
    have below := eval_follows env operand
    rw [visits, eval]
    apply follows_bind below
    intro v value
    refine follows_own (fun result ok => ⟨result, ?_⟩) fun err failed => .unary value failed
    rw [eval]
    exact (Traced.bind_from value).trans ok
  | binary operator left right span =>
    have first := eval_follows env left
    have second := eval_follows env right
    rw [visits, eval]
    apply follows_bind first
    intro l value
    apply follows_bind second
    intro r value'
    refine follows_own (fun result ok => ⟨result, ?_⟩) fun err failed => .binary value value' failed
    rw [eval]
    exact (Traced.bind_from value).trans ((Traced.bind_from value').trans ok)
  | logical operator left right span =>
    have first := eval_follows env left
    have second := eval_follows env right
    rw [visits]
    refine follows_last ?_ fun v ok => ⟨v, ok⟩
    rw [eval]
    apply follows_bind first
    intro l value
    rw [value, behind]
    have needed : Follows env (right.eval env >>= fun r => pure (Value.boolean r.isTruthy))
        (visits env right) := by
      rw [← List.append_nil (visits env right)]
      exact follows_bind second fun r _ => follows_pure (Value.boolean r.isTruthy)
    cases operator <;> cases truth : l.isTruthy <;> simp only [LogicalOp.decides, truth]
    · exact follows_pure _
    · exact needed
    · exact needed
    · exact follows_pure _
  | ternary condition whenTrue whenFalse span =>
    have first := eval_follows env condition
    have second := eval_follows env whenTrue
    have third := eval_follows env whenFalse
    rw [visits]
    refine follows_last ?_ fun v ok => ⟨v, ok⟩
    rw [eval]
    apply follows_bind first
    intro c value
    rw [value, behind]
    by_cases truth : c.isTruthy = true
    · rw [if_pos truth, if_pos truth]
      exact second
    · rw [if_neg truth, if_neg truth]
      exact third
  | call n args span =>
    have below := eval_all_follows env args
    rw [visits]
    cases found : lookUpFunction env n span with
    | error err =>
      refine follows_own (fun v ok => ⟨v, ok⟩) ?_
      intro err' failed
      rw [eval, found] at failed
      cases failed
      exact .callee found
    | ok f =>
      rw [eval_call found, behind]
      apply follows_bind below
      intro values given
      refine follows_own (fun v ok => ⟨v, ?_⟩) fun err failed => call_faults found given failed
      rw [eval_call found]
      exact (Traced.bind_from given).trans ok

theorem eval_all_follows (env : Environment) (es : List Expr) :
    Follows env (evalAll env es) (visitsAll env es) := by
  match es with
  | [] =>
    rw [visitsAll, evalAll]
    exact follows_pure []
  | e :: es =>
    have first := eval_follows env e
    have later := eval_all_follows env es
    rw [visitsAll, evalAll]
    apply follows_bind first
    intro v _
    rw [← List.append_nil (visitsAll env es)]
    exact follows_bind later fun vs _ => follows_pure (v :: vs)

end

theorem faults_error {env : Environment} {n : Expr} {e : Stop Error} (faults : Faults env n e) :
    (n.eval env).outcome = .error e := by
  cases faults with
  | name failed =>
    rw [eval]
    exact failed
  | unary value failed =>
    rw [eval]
    exact (Traced.bind_from value).trans failed
  | binary first second failed =>
    rw [eval]
    exact (Traced.bind_from first).trans ((Traced.bind_from second).trans failed)
  | callee failed =>
    rw [eval, failed]
    rfl
  | host found given failed =>
    rw [eval_call found, Traced.bind_from given, Traced.outcome_bind, Traced.mapError, failed]
    rfl
  | result found given called failed =>
    rw [eval_call found, Traced.bind_from given, Traced.outcome_bind, Traced.mapError, called]
    exact failed

theorem not_passed {env : Environment} {before : List Expr} {n : Expr} {e : Stop Error}
    (fine : ∀ m ∈ before, m.HasValue env) (faults : Faults env n e) : n ∉ before := by
  intro member
  obtain ⟨v, value⟩ := fine n member
  rw [faults_error faults] at value
  cases value

theorem head_of_split {n m : Expr} {after after' gap : List Expr}
    (same : n :: after = gap ++ m :: after') (passed : n ∉ gap) : n = m := by
  cases gap with
  | nil => exact (List.cons.inj same).1
  | cons head gap =>
    obtain ⟨rfl, -⟩ := List.cons.inj same
    exact absurd List.mem_cons_self passed

theorem stops_unique {env : Environment} {order : List Expr} {n m : Expr} {e f : Stop Error}
    (first : StopsIn env order n e) (second : StopsIn env order m f) : n = m := by
  obtain ⟨before, after, rfl, fine, faults⟩ := first
  obtain ⟨before', after', same, fine', faults'⟩ := second
  rcases List.append_eq_append_iff.mp same with ⟨gap, rfl, rest⟩ | ⟨gap, rfl, rest⟩
  · have passed := not_passed fine' faults
    exact head_of_split rest fun member => passed (List.mem_append_right before member)
  · have passed := not_passed fine faults'
    exact (head_of_split rest fun member => passed (List.mem_append_right before' member)).symm

end Expr

end Formula
