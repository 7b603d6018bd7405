import Formula.Proofs.FailingNode
import Formula.Proofs.Sites

set_option autoImplicit false

namespace Formula

theorem Traced.outcome_stopped {α β : Type} {t : Traced α} {next : α → Traced β} {e : Stop Error}
    (failed : t.outcome = .error e) : (t >>= next).outcome = .error e := by
  rw [outcome_bind, failed]
  rfl

namespace Expr

-- The operands of a node that are not evaluated, whatever becomes of those before them.
inductive PassesOver (env : Environment) : Expr → Nat → Prop where
  | right {operator : LogicalOp} {left right : Expr} {span : Span} {l : Value}
    (value : (left.eval env).outcome = .ok l) (decides : operator.decides l = true) :
    PassesOver env (.logical operator left right span) 1
  | whenTrue {condition whenTrue whenFalse : Expr} {span : Span} {c : Value}
    (value : (condition.eval env).outcome = .ok c) (fails : c.isTruthy = false) :
    PassesOver env (.ternary condition whenTrue whenFalse span) 1
  | whenFalse {condition whenTrue whenFalse : Expr} {span : Span} {c : Value}
    (value : (condition.eval env).outcome = .ok c) (holds : c.isTruthy = true) :
    PassesOver env (.ternary condition whenTrue whenFalse span) 2
  | args {n : String} {args : List Expr} {span : Span} {e : Stop Error} {i : Nat}
    (missing : lookUpFunction env n span = .error e) : PassesOver env (.call n args span) i

def Selected (env : Environment) (e : Expr) (site : Site) : Prop :=
  ∀ above i below n, site = above ++ i :: below → e.nodeAt? above = some n →
    ¬ PassesOver env n i

structure Reaches (env : Environment) (e : Expr) (i : Nat) : Prop where
  needed : ¬ PassesOver env e i
  before : ∀ j < i, ∀ operand, e.children[j]? = some operand →
    PassesOver env e j ∨ operand.HasValue env

inductive FailsAt (env : Environment) : Expr → Site → Stop Error → Prop where
  | own {e : Expr} {err : Stop Error} (faults : Faults env e err) : FailsAt env e [] err
  | operand {e operand : Expr} {i : Nat} {site : Site} {err : Stop Error}
    (below : e.children[i]? = some operand) (reached : Reaches env e i)
    (fails : FailsAt env operand site err) : FailsAt env e (i :: site) err

section

variable {env : Environment} {e operand : Expr} {i : Nat}

theorem selected_operand {site : Site} (below : e.children[i]? = some operand)
    (needed : ¬ PassesOver env e i) (selected : Selected env operand site) :
    Selected env e (i :: site) := by
  intro above j rest n split found
  cases above with
  | nil =>
    cases split
    cases found
    exact needed
  | cons k above =>
    cases split
    rw [node_at_operand below] at found
    exact selected above j rest n rfl found

theorem reaches_first (needed : ¬ PassesOver env e 0) : Reaches env e 0 :=
  ⟨needed, fun _ below => absurd below (Nat.not_lt_zero _)⟩

theorem reaches_next (reached : Reaches env e i)
    (below : e.children[i]? = some operand) (passed : PassesOver env e i ∨ operand.HasValue env)
    (needed : ¬ PassesOver env e (i + 1)) : Reaches env e (i + 1) := by
  refine ⟨needed, ?_⟩
  intro j before other found
  rcases Nat.lt_succ_iff_lt_or_eq.mp before with earlier | rfl
  · exact reached.before j earlier other found
  · cases below.symm.trans found
    exact passed

theorem right_needed {operator : LogicalOp} {left right : Expr} {span : Span} {l : Value}
    (value : (left.eval env).outcome = .ok l) (undecided : operator.decides l = false) :
    ¬ PassesOver env (.logical operator left right span) 1 := by
  intro passed
  cases passed with
  | right value' decides =>
    cases value.symm.trans value'
    rw [undecided] at decides
    cases decides

theorem when_true_needed {condition whenTrue whenFalse : Expr} {span : Span} {c : Value}
    (value : (condition.eval env).outcome = .ok c) (holds : c.isTruthy = true) :
    ¬ PassesOver env (.ternary condition whenTrue whenFalse span) 1 := by
  intro passed
  cases passed with
  | whenTrue value' fails =>
    cases value.symm.trans value'
    rw [holds] at fails
    cases fails

theorem no_argument_passed {n : String} {span : Span} {f : Function}
    (found : lookUpFunction env n span = .ok f) (args : List Expr) (j : Nat) :
    ¬ PassesOver env (.call n args span) j := by
  intro passed
  cases passed with
  | args missing =>
    rw [found] at missing
    cases missing

end

theorem eval_all_values {env : Environment} {es : List Expr} {values : List Value}
    (given : (evalAll env es).outcome = .ok values) :
    List.Forall₂ (fun e value => (e.eval env).outcome = .ok value) es values := by
  induction es generalizing values with
  | nil =>
    rw [evalAll] at given
    cases given
    exact .nil
  | cons e es ih =>
    rw [evalAll] at given
    cases first : (e.eval env).outcome with
    | error err =>
      rw [Traced.outcome_stopped first] at given
      cases given
    | ok value =>
      rw [Traced.bind_from first] at given
      cases rest : (evalAll env es).outcome with
      | error err =>
        rw [Traced.outcome_stopped rest] at given
        cases given
      | ok later =>
        rw [Traced.bind_from rest] at given
        cases given
        exact .cons first (ih rest)

theorem argument_value {env : Environment} {e : Expr} {es : List Expr} {values : List Value}
    (given : (evalAll env es).outcome = .ok values) (member : e ∈ es) : e.HasValue env := by
  have values := eval_all_values given
  clear given
  induction values with
  | nil => cases member
  | @cons first v _ _ value _ ih =>
    rcases List.mem_cons.mp member with rfl | later
    · exact ⟨v, value⟩
    · exact ih later

section

variable {env : Environment} {e operand : Expr} {i : Nat} {err : Stop Error}

theorem eval_all_stopped {es : List Expr} (below : es[i]? = some operand)
    (failed : (operand.eval env).outcome = .error err)
    (before : ∀ j < i, ∀ other, es[j]? = some other → other.HasValue env) :
    (evalAll env es).outcome = .error err := by
  induction es generalizing i with
  | nil => cases below
  | cons first es ih =>
    rw [evalAll]
    cases i with
    | zero =>
      cases below
      exact Traced.outcome_stopped failed
    | succ i =>
      obtain ⟨v, value⟩ := before 0 (Nat.succ_pos i) first rfl
      rw [Traced.bind_from value]
      apply Traced.outcome_stopped
      refine ih below fun j earlier other found => ?_
      exact before (j + 1) (Nat.succ_lt_succ earlier) other found

theorem called_of_reached {n : String} {args : List Expr} {span : Span}
    (reached : Reaches env (.call n args span) i) : ∃ f, lookUpFunction env n span = .ok f := by
  cases found : lookUpFunction env n span with
  | error e => exact absurd (.args found) reached.needed
  | ok f => exact ⟨f, rfl⟩

theorem operand_stops (below : e.children[i]? = some operand) (reached : Reaches env e i)
    (failed : (operand.eval env).outcome = .error err) : (e.eval env).outcome = .error err := by
  have first (needed : ¬ PassesOver env e 0) (head : Expr) (found : e.children[0]? = some head)
      (later : 0 < i) : head.HasValue env := (reached.before 0 later head found).resolve_left needed
  match e, i with
  | group inner span, 0 =>
    cases below
    rw [eval]
    exact failed
  | unary operator inner span, 0 =>
    cases below
    rw [eval]
    exact Traced.outcome_stopped failed
  | binary operator left right span, 0 =>
    cases below
    rw [eval]
    exact Traced.outcome_stopped failed
  | binary operator left right span, 1 =>
    cases below
    obtain ⟨l, value⟩ := first nofun left rfl Nat.zero_lt_one
    rw [eval, Traced.bind_from value]
    exact Traced.outcome_stopped failed
  | logical operator left right span, 0 =>
    cases below
    rw [eval]
    exact Traced.outcome_stopped failed
  | logical operator left right span, 1 =>
    cases below
    obtain ⟨l, value⟩ := first nofun left rfl Nat.zero_lt_one
    have undecided : ¬ operator.decides l = true :=
      fun decides => reached.needed (.right value decides)
    rw [eval, Traced.bind_from value]
    cases operator <;> cases truth : l.isTruthy <;> rw [LogicalOp.decides, truth] at undecided
    · exact absurd rfl undecided
    · exact Traced.outcome_stopped failed
    · exact Traced.outcome_stopped failed
    · exact absurd rfl undecided
  | ternary condition whenTrue whenFalse span, 0 =>
    cases below
    rw [eval]
    exact Traced.outcome_stopped failed
  | ternary condition whenTrue whenFalse span, 1 =>
    cases below
    obtain ⟨c, value⟩ := first nofun condition rfl Nat.zero_lt_one
    have truth : c.isTruthy = true := by
      by_contra fails
      exact reached.needed (.whenTrue value (Bool.eq_false_iff.mpr fails))
    rw [eval, Traced.bind_from value, if_pos truth]
    exact failed
  | ternary condition whenTrue whenFalse span, 2 =>
    cases below
    obtain ⟨c, value⟩ := first nofun condition rfl Nat.zero_lt_two
    have truth : ¬ c.isTruthy = true := fun holds => reached.needed (.whenFalse value holds)
    rw [eval, Traced.bind_from value, if_neg truth]
    exact failed
  | call n args span, i =>
    obtain ⟨f, found⟩ := called_of_reached reached
    rw [eval_call found]
    apply Traced.outcome_stopped
    exact eval_all_stopped below failed fun j earlier other member =>
      (reached.before j earlier other member).resolve_left (no_argument_passed found args j)

theorem fails_at_outcome {site : Site} (fails : FailsAt env e site err) :
    (e.eval env).outcome = .error err := by
  induction fails with
  | own faults => exact faults_error faults
  | operand below reached _ ih => exact operand_stops below reached ih

theorem operand_of_faults (faults : Faults env e err) (below : e.children[i]? = some operand)
    (needed : ¬ PassesOver env e i) : operand.HasValue env := by
  cases faults with
  | name failed => cases below
  | @unary _ _ _ v _ value failed =>
    match i with
    | 0 =>
      cases below
      exact ⟨v, value⟩
  | @binary _ _ _ _ l r _ value value' failed =>
    match i with
    | 0 =>
      cases below
      exact ⟨l, value⟩
    | 1 =>
      cases below
      exact ⟨r, value'⟩
  | callee failed => exact absurd (.args failed) needed
  | host found given | result found given =>
    exact argument_value given (List.mem_of_getElem? below)

theorem fails_at_unique {site other : Site} {err' : Stop Error} (fails : FailsAt env e site err)
    (fails' : FailsAt env e other err') : site = other := by
  have none_failed {operand : Expr} {site : Site} {err : Stop Error} (value : operand.HasValue env) :
      ¬ FailsAt env operand site err := by
    intro fails
    obtain ⟨v, value⟩ := value
    rw [fails_at_outcome fails] at value
    cases value
  induction fails generalizing other with
  | own faults =>
    cases fails' with
    | own faults' => rfl
    | operand below reached fails =>
      exact absurd fails (none_failed (operand_of_faults faults below reached.needed))
  | @operand _ _ i _ _ below reached fails ih =>
    cases fails' with
    | own faults =>
      exact absurd fails (none_failed (operand_of_faults faults below reached.needed))
    | @operand _ _ j _ _ below' reached' fails' =>
      rcases Nat.lt_trichotomy i j with earlier | rfl | later
      · have value := (reached'.before i earlier _ below).resolve_left reached.needed
        exact absurd fails (none_failed value)
      · cases below.symm.trans below'
        rw [ih fails']
      · have value := (reached.before j later _ below').resolve_left reached'.needed
        exact absurd fails' (none_failed value)

end

end Expr

end Formula
