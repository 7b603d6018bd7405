import Formula.Proofs.RangeGate
import Formula.Proofs.ResultScales
import Formula.Proofs.SymbolTable

set_option autoImplicit false

namespace Formula

namespace Environment

theorem row_binds {items : List (String × Symbol)} {env last : Environment}
    (declared : declareEach Catalogue.declareDefault env items = (last, .ok ())) :
    ∀ item ∈ items, last.get? (defaultBinding item).1 = some (defaultBinding item).2 := by
  induction items generalizing env with
  | nil => exact nofun
  | cons first items ih =>
    rw [declareEach] at declared
    cases one : Catalogue.declareDefault env first with
    | error e =>
      rw [one] at declared
      cases declared
    | ok next =>
      rw [one] at declared
      dsimp only at declared
      intro item member
      rcases List.mem_cons.mp member with rfl | later
      · have bound := (default_binds one).get (defaultBinding item).1
        rw [if_pos rfl] at bound
        have kept : Extends next (declareEach Catalogue.declareDefault next items).1 :=
          declare_each_keeps items (fun _ _ _ _ grown made =>
            extends_trans grown (declares_extends (default_declares made))) (extends_refl next)
        rw [declared] at kept
        exact kept _ _ bound
      · exact ih declared item later

def HasDefaults (env : Environment) : Prop := Extends Catalogue.environment env

theorem defaults_installed :
    declareEach Catalogue.declareDefault empty Catalogue.defaults =
      (Catalogue.environment, .ok ()) := by
  have complete : (Catalogue.install .empty).2 = .ok () := by decide +kernel
  exact Prod.ext rfl complete

theorem HasDefaults.default_bound {env : Environment} (defaults : env.HasDefaults) {f : Function}
    (member : f ∈ Catalogue.functions) : env.get? f.name = some (.function f) := by
  apply defaults
  exact row_binds defaults_installed (f.name, .function f)
    (List.mem_append_left _ (List.mem_map_of_mem member))

end Environment

namespace Environment

theorem declared_extends {env : Environment} {name : String} (fresh : env.get? name = none)
    (symbol : Symbol) : ∃ next, Extends env next ∧ next.get? name = some symbol := by
  obtain ⟨next, declared⟩ := declare_of_fresh fresh symbol
  refine ⟨next, declare_extends declared, ?_⟩
  rw [get_declared declared, if_pos rfl]

theorem exists_with_variables (x p : Value) :
    ∃ env : Environment, env.HasDefaults ∧ env.get? "x" = some (.value x) ∧
      env.get? "p" = some (.value p) := by
  have free (name : String) (absent : (Catalogue.environment.get? name).isNone = true) :
      Catalogue.environment.get? name = none := Option.isNone_iff_eq_none.mp absent
  obtain ⟨first, declared⟩ := declare_of_fresh (free "x" (by decide +kernel)) (.value x)
  have still : first.get? "p" = none := by
    rw [get_declared declared, if_neg (by decide)]
    exact free "p" (by decide +kernel)
  obtain ⟨env, extends_first, bound⟩ := declared_extends still (.value p)
  refine ⟨env, extends_trans (declare_extends declared) extends_first, ?_, bound⟩
  apply extends_first
  rw [get_declared declared, if_pos rfl]

end Environment

namespace Expr

variable {env : Environment} {f : Function} {args : List Expr} {values : List Value} {d : Decimal}

theorem name_value {n : String} {v : Value} (bound : env.get? n = some (.value v)) (span : Span) :
    ((name n span).eval env).outcome = .ok v := by
  rw [eval, lookUp, bound]
  rfl

theorem equal_numbers {left right : Expr} {l r : Decimal}
    (first : (left.eval env).outcome = .ok (.number l))
    (second : (right.eval env).outcome = .ok (.number r)) (same : l.toRat = r.toRat) (span : Span) :
    ((binary .equal left right span).eval env).outcome = .ok (.boolean true) := by
  rw [eval, Traced.bind_from first, Traced.bind_from second]
  change Except.ok (Value.boolean (l.sameNumber r)) = _
  rw [(Decimal.same_number_iff l r).mpr same]

theorem default_number (defaults : env.HasDefaults) (member : f ∈ Catalogue.functions)
    (given : List.Forall₂ (fun arg value => (arg.eval env).outcome = .ok value) args values)
    (computed : (f.call values).outcome = .ok (.number d)) (inner : |d.scale| < 2 ^ 63)
    (span : Span) :
    (d.Bounded → ((call f.name args span).eval env).outcome = .ok (.number d)) ∧
      (¬ d.Bounded → ((call f.name args span).eval env).outcome =
        .error (.located (.numberOutOfRange (f.name ++ "()")) span)) := by
  have gate := returned_number (defaults.default_bound member) given computed span
  exact ⟨gate.inside, gate.outside (Decimal.inner_off_lowest inner)⟩

end Expr

theorem evaluate_of_parsed {source : String} {e : Expr} (parsed : parse source = .ok e)
    (env : Environment) : evaluate source env = (e.eval env).outcome := by
  rw [evaluate, evaluateTraced, parsed]

end Formula
