import Formula.Proofs.Declarations
import Formula.Proofs.FailingNode
import Formula.Proofs.NumbersInRange

set_option autoImplicit false

namespace Formula

namespace Expr

mutual

def replace (x : String) (e : Expr) : Expr → Expr
  | literal value span => literal value span
  | name n span => if n = x then group e span else name n span
  | group inner span => group (replace x e inner) span
  | unary operator operand span => unary operator (replace x e operand) span
  | binary operator left right span =>
    binary operator (replace x e left) (replace x e right) span
  | logical operator left right span =>
    logical operator (replace x e left) (replace x e right) span
  | ternary condition whenTrue whenFalse span =>
    ternary (replace x e condition) (replace x e whenTrue) (replace x e whenFalse) span
  | call n args span => call n (replaceAll x e args) span

def replaceAll (x : String) (e : Expr) : List Expr → List Expr
  | [] => []
  | arg :: args => replace x e arg :: replaceAll x e args

end

def Uncalled (x : String) (c : Expr) : Prop := ∀ args span, call x args span ∉ c.nodes

theorem uncalled_below {x : String} {c child : Expr} (uncalled : Uncalled x c)
    (below : child ∈ c.children) : Uncalled x child :=
  fun args span member => uncalled args span (mem_nodes.mpr (.inr ⟨child, below, member⟩))

end Expr

theorem Traced.bind_outcome {α β : Type} {t t' : Traced α} {next next' : α → Traced β}
    (first : t.outcome = t'.outcome) (further : ∀ a, (next a).outcome = (next' a).outcome) :
    (t >>= next).outcome = (t' >>= next').outcome := by
  rw [outcome_bind, outcome_bind, first, funext further]

namespace Expr

mutual

theorem eval_replace {env next : Environment} {x : String} {e : Expr} {v : Value}
    (value : (e.eval env).outcome = .ok v)
    (names : ∀ n, next.get? n = if n = x then some (.value v) else env.get? n) (c : Expr)
    (uncalled : Uncalled x c) : (c.eval next).outcome = ((replace x e c).eval env).outcome := by
  match c with
  | literal value span => rw [replace, eval, eval]
  | name n span =>
    rw [replace, eval]
    change lookUp next n span = _
    by_cases same : n = x
    · rw [if_pos same, eval, value, lookUp, names, if_pos same]
    · rw [if_neg same, eval, lookUp, names, if_neg same]
      rfl
  | group inner span =>
    rw [replace, eval, eval]
    exact eval_replace value names inner (uncalled_below uncalled (by simp [children]))
  | unary operator operand span =>
    have below := eval_replace value names operand (uncalled_below uncalled (by simp [children]))
    rw [replace, eval, eval]
    exact Traced.bind_outcome below fun _ => rfl
  | binary operator left right span =>
    have first := eval_replace value names left (uncalled_below uncalled (by simp [children]))
    have second := eval_replace value names right (uncalled_below uncalled (by simp [children]))
    rw [replace, eval, eval]
    exact Traced.bind_outcome first fun _ => Traced.bind_outcome second fun _ => rfl
  | logical operator left right span =>
    have first := eval_replace value names left (uncalled_below uncalled (by simp [children]))
    have second := eval_replace value names right (uncalled_below uncalled (by simp [children]))
    rw [replace, eval, eval]
    apply Traced.bind_outcome first
    intro l
    cases operator <;> cases l.isTruthy
    · rfl
    · exact Traced.bind_outcome second fun _ => rfl
    · exact Traced.bind_outcome second fun _ => rfl
    · rfl
  | ternary condition whenTrue whenFalse span =>
    have first := eval_replace value names condition (uncalled_below uncalled (by simp [children]))
    have second := eval_replace value names whenTrue (uncalled_below uncalled (by simp [children]))
    have third := eval_replace value names whenFalse (uncalled_below uncalled (by simp [children]))
    rw [replace, eval, eval]
    apply Traced.bind_outcome first
    intro c
    by_cases truth : c.isTruthy = true
    · rw [if_pos truth, if_pos truth]
      exact second
    · rw [if_neg truth, if_neg truth]
      exact third
  | call n args span =>
    have below := eval_all_replace value names args fun arg => uncalled_below uncalled
    have other : n ≠ x := by
      rintro rfl
      exact uncalled args span List.mem_cons_self
    have callee : lookUpFunction next n span = lookUpFunction env n span := by
      rw [lookUpFunction, names, if_neg other, lookUpFunction]
    rw [replace, eval, eval, callee]
    apply Traced.bind_outcome rfl
    intro f
    exact Traced.bind_outcome below fun _ => rfl

theorem eval_all_replace {env next : Environment} {x : String} {e : Expr} {v : Value}
    (value : (e.eval env).outcome = .ok v)
    (names : ∀ n, next.get? n = if n = x then some (.value v) else env.get? n) (cs : List Expr)
    (uncalled : ∀ c ∈ cs, Uncalled x c) :
    (evalAll next cs).outcome = (evalAll env (replaceAll x e cs)).outcome := by
  match cs with
  | [] => rw [replaceAll, evalAll, evalAll]
  | c :: cs =>
    have first := eval_replace value names c (uncalled c List.mem_cons_self)
    have later := eval_all_replace value names cs fun c member =>
      uncalled c (List.mem_cons_of_mem _ member)
    rw [replaceAll, evalAll, evalAll]
    exact Traced.bind_outcome first fun _ => Traced.bind_outcome later fun _ => rfl

end

end Expr

/-- A name for a subexpression is sound. The value of a formula can be declared under any name that
is free, and an expression that has the name as a variable then has the outcome that it has with the
formula itself, in parentheses, in its place. -/
theorem naming_sound {source x : String} {env : Environment} {e c : Expr} {v : Value}
    (built : env.Built) (parsed : parse source = .ok e) (value : (e.eval env).outcome = .ok v)
    (fresh : env.get? x = none) (uncalled : ∀ args span, Expr.call x args span ∉ c.nodes) :
    ∃ next, env.declareVariable x v = .ok next ∧
      (c.eval next).outcome = ((Expr.replace x e c).eval env).outcome := by
  have sound := Expr.eval_sound (Environment.built_in_range built) e (parsed_in_range parsed)
  have range : v.InRange := sound.value v value
  obtain ⟨next, declared⟩ := Environment.declare_of_fresh fresh (.value v)
  refine ⟨next, (Environment.declare_variable_of_range range).trans declared, ?_⟩
  exact Expr.eval_replace value (Environment.get_declared declared) c uncalled

theorem naming_sound_of_rate :
    let c : Expr := .binary .multiply (.name "rate" ⟨0, 4⟩)
      (.call "abs" [.name "rate" ⟨11, 15⟩] ⟨7, 16⟩) ⟨0, 16⟩
    ∃ e next, parse "1 - sqrt(16)" = .ok e ∧
      (e.eval Catalogue.environment).outcome = .ok (.number ⟨-3, 0⟩) ∧
      Catalogue.environment.declareVariable "rate" (.number ⟨-3, 0⟩) = .ok next ∧
      (c.eval next).outcome = .ok (.number ⟨-9, 0⟩) ∧
      ((Expr.replace "rate" e c).eval Catalogue.environment).outcome = .ok (.number ⟨-9, 0⟩) := by
  intro c
  have value : (evaluateTraced "1 - sqrt(16)" Catalogue.environment).outcome =
      .ok (.number ⟨-3, 0⟩) := by decide +kernel
  have named : (Catalogue.environment.declareVariable "rate" (.number ⟨-3, 0⟩)).map
      (fun next => (c.eval next).outcome) = .ok (.ok (.number ⟨-9, 0⟩)) := by decide +kernel
  rw [evaluateTraced] at value
  cases parsed : parse "1 - sqrt(16)" with
  | error e =>
    rw [parsed] at value
    cases value
  | ok e =>
    rw [parsed] at value
    have built : Catalogue.environment.Built := .install .empty
    have fresh : (Catalogue.environment.get? "rate").isNone = true := by decide +kernel
    have uncalled : ∀ args span, Expr.call "rate" args span ∉ c.nodes := by
      simp [c, Expr.nodes, Expr.nodesOfAll]
    obtain ⟨next, declared, same⟩ :=
      naming_sound built parsed value (Option.isNone_iff_eq_none.mp fresh) uncalled
    rw [declared] at named
    have outcome : (c.eval next).outcome = .ok (.number ⟨-9, 0⟩) := Except.ok.inj named
    exact ⟨e, next, rfl, value, declared, outcome, same ▸ outcome⟩

end Formula
