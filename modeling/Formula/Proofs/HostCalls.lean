import Formula.Catalogue
import Formula.Proofs.FailurePlace

set_option autoImplicit false

namespace Formula

def Event.invocation? : Event → Option (String × List Value)
  | .verified _ _ => none
  | .invoked name args => some (name, args)

namespace Traced

variable {α β : Type} {t : Traced α} {next : α → Traced β}

def invocations (t : Traced α) : List (String × List Value) :=
  t.events.filterMap Event.invocation?

theorem invocations_bind {a : α} (value : t.outcome = .ok a) :
    (t >>= next).invocations = t.invocations ++ (next a).invocations := by
  change (t.andThen next).invocations = _
  rw [andThen, value]
  exact List.filterMap_append

theorem invocations_stopped {e : Stop Error} (failed : t.outcome = .error e) :
    (t >>= next).invocations = t.invocations := by
  change (t.andThen next).invocations = _
  rw [andThen, failed]
  rfl

end Traced

theorem append_cons_split {α : Type} {a b before after : List α} {c : α}
    (same : a ++ b = before ++ c :: after) :
    (∃ mid, before = a ++ mid ∧ b = mid ++ c :: after) ∨ ∃ tail, a = before ++ c :: tail := by
  rcases List.append_eq_append_iff.mp same with ⟨mid, rfl, rest⟩ | ⟨mid, rfl, rest⟩
  · exact .inl ⟨mid, rfl, rest⟩
  · cases mid with
    | nil => exact .inl ⟨[], by simp, by simpa using rest.symm⟩
    | cons d mid =>
      obtain ⟨rfl, -⟩ := List.cons.inj rest
      exact .inr ⟨mid, rfl⟩

namespace Function

structure Admits (f : Function) (args : List Value) : Prop where
  count : f.arity.accepts args.length = true
  kinds : ∀ i arg kind, args[i]? = some arg → f.paramAt? i = some kind → kind.accepts arg = true
  verified : ∀ verifier, f.verifier = some verifier → verifier args = .ok ()

theorem checked_count {f : Function} {args : List Value} (checked : f.checkArity args = .ok ()) :
    f.arity.accepts args.length = true := by
  rw [checkArity] at checked
  by_cases accepted : f.arity.accepts args.length = true
  · exact accepted
  · rw [if_neg accepted] at checked
    cases checked

theorem checked_kinds {f : Function} {args : List Value} {index : Nat}
    (checked : f.checkTypesFrom index args = .ok ()) (i : Nat) (arg : Value) (kind : Kind)
    (given : args[i]? = some arg) (expected : f.paramAt? (index + i) = some kind) :
    kind.accepts arg = true := by
  induction args generalizing index i with
  | nil => cases given
  | cons head args ih =>
    cases i with
    | zero =>
      cases given
      rw [checkTypesFrom, show f.paramAt? index = some kind from expected] at checked
      by_cases accepted : kind.accepts arg = true
      · exact accepted
      · dsimp only at checked
        rw [if_neg accepted] at checked
        cases checked
    | succ i =>
      have later : f.checkTypesFrom (index + 1) args = .ok () := by
        rw [checkTypesFrom] at checked
        split at checked
        · exact checked
        · split at checked
          · exact checked
          · cases checked
      exact ih later i given (by rwa [Nat.add_right_comm])

theorem kinds_accepted {f : Function} {args : List Value} {index : Nat}
    (kinds : ∀ i arg kind, args[i]? = some arg → f.paramAt? (index + i) = some kind →
      kind.accepts arg = true) : f.checkTypesFrom index args = .ok () := by
  induction args generalizing index with
  | nil => rfl
  | cons head args ih =>
    have later : f.checkTypesFrom (index + 1) args = .ok () :=
      ih fun i arg kind given expected =>
        kinds (i + 1) arg kind given (by rwa [Nat.add_right_comm] at expected)
    rw [checkTypesFrom, later]
    split
    · rfl
    · rename_i expected
      rw [if_pos (kinds 0 head _ rfl expected)]

theorem admits_iff {f : Function} {args : List Value} : f.Admits args ↔
    f.checkArity args = .ok () ∧ f.checkTypes args = .ok () ∧ (f.verify args).outcome = .ok () := by
  constructor
  · rintro ⟨count, kinds, verified⟩
    refine ⟨if_pos count, kinds_accepted (by simpa using kinds), ?_⟩
    rw [verify]
    cases given : f.verifier with
    | none => rfl
    | some verifier => exact verified verifier given
  · rintro ⟨counted, typed, verified⟩
    refine ⟨checked_count counted, ?_, ?_⟩
    · intro i arg kind given expected
      exact checked_kinds typed i arg kind given (by rwa [Nat.zero_add])
    · intro verifier given
      rwa [verify, given] at verified

theorem call_runs (f : Function) (args : List Value) :
    (f.Admits args ∧ (f.call args).invocations = [(f.name, args)]) ∨
      (¬ f.Admits args ∧ (f.call args).invocations = []) := by
  rw [call, admits_iff]
  cases counted : f.checkArity args with
  | error e => exact .inr ⟨nofun, rfl⟩
  | ok u =>
    rw [Traced.invocations_bind rfl]
    cases typed : f.checkTypes args with
    | error e => exact .inr ⟨nofun, rfl⟩
    | ok u =>
      rw [Traced.invocations_bind rfl]
      cases verified : (f.verify args).outcome with
      | error e =>
        refine .inr ⟨nofun, ?_⟩
        rw [Traced.invocations_stopped verified, verify]
        cases f.verifier <;> rfl
      | ok u =>
        refine .inl ⟨⟨rfl, rfl, rfl⟩, ?_⟩
        rw [Traced.invocations_bind verified, verify]
        cases f.verifier <;> rfl

end Function

namespace Expr

inductive Invokes (env : Environment) : Expr → String × List Value → Prop where
  | call {n : String} {args : List Expr} {span : Span} {f : Function} {values : List Value}
    (found : env.get? n = some (.function f))
    (given : List.Forall₂ (fun arg value => (arg.eval env).outcome = .ok value) args values)
    (admitted : f.Admits values) : Invokes env (.call n args span) (f.name, values)

def InvokedAt (env : Environment) (e : Expr) (site : Site) (invocation : String × List Value) :
    Prop :=
  ∃ n, e.nodeAt? site = some n ∧ Invokes env n invocation

-- What a run invoked it invoked at the given places of a node, which follow an order; if it failed,
-- then at a place of the order that none of them is behind. What it could have invoked it did, but
-- behind that place.
structure RunsAt {α : Type} (env : Environment) (e : Expr) (t : Traced α) (order ran : List Site) :
    Prop where
  ordered : ran.Sublist order
  invoked : List.Forall₂ (InvokedAt env e) ran t.invocations
  selected : ∀ site ∈ ran, Selected env e site
  stopped : ∀ err, t.outcome = .error err → ∃ before site after,
    order = before ++ site :: after ∧ ran.Sublist (before ++ [site]) ∧ FailsAt env e site err
  complete : ∀ before site after, order = before ++ site :: after →
    (∃ invocation, InvokedAt env e site invocation) → Selected env e site →
    (∀ err, t.outcome = .error err → ∀ other, FailsAt env e other err → other ∉ before) →
    site ∈ ran

def Runs {α : Type} (env : Environment) (e : Expr) (t : Traced α) (order : List Site) : Prop :=
  ∃ ran, RunsAt env e t order ran

def Idle (env : Environment) (e : Expr) (site : Site) : Prop :=
  Selected env e site → ∀ invocation, ¬ InvokedAt env e site invocation

section

variable {α β : Type} {env : Environment} {e : Expr}

theorem runs_pure (a : α) {order : List Site} (idle : ∀ site ∈ order, Idle env e site) :
    Runs env e (pure a) order := by
  refine ⟨[], List.nil_sublist _, .nil, nofun, ?_, ?_⟩
  · intro err failed
    cases failed
  · rintro before site after rfl ⟨invocation, invoked⟩ selected -
    exact absurd invoked (idle site (by simp) selected invocation)

theorem runs_own {t : Traced α}
    (invoked : (t.invocations = [] ∧ ∀ invocation, ¬ Invokes env e invocation) ∨
      ∃ invocation, t.invocations = [invocation] ∧ Invokes env e invocation)
    (failed : ∀ err, t.outcome = .error err → Faults env e err) : Runs env e t [[]] := by
  have stopped (ran : List Site) (few : ran.Sublist [[]]) (err : Stop Error)
      (error : t.outcome = .error err) : ∃ before site after,
        [[]] = before ++ site :: after ∧ ran.Sublist (before ++ [site]) ∧ FailsAt env e site err :=
    ⟨[], [], [], rfl, few, .own (failed err error)⟩
  have root {before after : List Site} {site : Site} (split : [[]] = before ++ site :: after) :
      site = [] := by
    cases before with
    | nil => exact (List.cons.inj split).1.symm
    | cons head before => simp at split
  rcases invoked with ⟨none, idle⟩ | ⟨invocation, one, invokes⟩
  · refine ⟨[], List.nil_sublist _, ?_, nofun, stopped [] (List.nil_sublist _), ?_⟩
    · rw [none]
      exact .nil
    · rintro before site after split ⟨invocation, n, here, invokes⟩ - -
      cases root split
      cases here
      exact absurd invokes (idle invocation)
  · refine ⟨[[]], List.Sublist.refl _, ?_, ?_, stopped [[]] (List.Sublist.refl _), ?_⟩
    · rw [one]
      exact .cons ⟨e, rfl, invokes⟩ .nil
    · intro site member above i below n split
      rw [List.mem_singleton.mp member] at split
      cases above <;> cases split
    · intro before site after split _ _ _
      rw [root split]
      exact List.mem_singleton_self _

theorem runs_within {t : Traced α} {order front back : List Site} (runs : Runs env e t order)
    (idle : ∀ site ∈ front ++ back, Idle env e site) : Runs env e t (front ++ (order ++ back)) := by
  obtain ⟨ran, ordered, invoked, selected, stopped, complete⟩ := runs
  refine ⟨ran, ?_, invoked, selected, ?_, ?_⟩
  · exact (ordered.trans (List.sublist_append_left _ _)).trans (List.sublist_append_right _ _)
  · intro err error
    obtain ⟨before, site, after, rfl, early, fails⟩ := stopped err error
    refine ⟨front ++ before, site, after ++ back, by simp, ?_, fails⟩
    rw [List.append_assoc]
    exact early.trans (List.sublist_append_right _ _)
  · rintro before site after split ⟨invocation, here⟩ chosen first
    have busy (member : site ∈ front ++ back) : site ∈ ran :=
      absurd here (idle site member chosen invocation)
    rcases append_cons_split split with ⟨mid, rfl, rest⟩ | inside
    · rcases append_cons_split rest with ⟨more, rfl, last⟩ | inside
      · exact busy (by rw [last]; simp)
      · obtain ⟨tail, part⟩ := inside
        exact complete mid site tail part ⟨invocation, here⟩ chosen fun err error other fails member =>
          first err error other fails (List.mem_append_right front member)
    · obtain ⟨tail, rfl⟩ := inside
      exact busy (by simp)

theorem runs_before {t : Traced α} {order back : List Site} (runs : Runs env e t order)
    (idle : ∀ site ∈ back, Idle env e site) : Runs env e t (order ++ back) :=
  have within : Runs env e t ([] ++ (order ++ back)) := runs_within runs idle
  within

theorem runs_bind {t : Traced α} {next : α → Traced β} {order later : List Site}
    (first : Runs env e t order)
    (second : ∀ a, t.outcome = .ok a → Runs env e (next a) later) :
    Runs env e (t >>= next) (order ++ later) := by
  obtain ⟨ran, ordered, invoked, selected, stopped, complete⟩ := first
  cases outcome : t.outcome with
  | error err =>
    refine ⟨ran, ordered.trans (List.sublist_append_left _ _), ?_, selected, ?_, ?_⟩
    · rw [Traced.invocations_stopped outcome]
      exact invoked
    · intro err' error
      rw [Traced.outcome_stopped outcome] at error
      cases error
      obtain ⟨before, site, after, rfl, early, fails⟩ := stopped err outcome
      exact ⟨before, site, after ++ later, by simp, early, fails⟩
    · intro before site after split here chosen free
      rcases append_cons_split split with ⟨mid, rfl, -⟩ | ⟨tail, part⟩
      · -- The place is behind the one that has failed.
        obtain ⟨front, other, back, rfl, -, fails⟩ := stopped err outcome
        exact absurd (by simp) (free err (Traced.outcome_stopped outcome) other fails)
      · refine complete before site tail part here chosen fun err' error other fails => ?_
        rw [outcome] at error
        cases error
        exact free err (Traced.outcome_stopped outcome) other fails
  | ok a =>
    obtain ⟨ran', ordered', invoked', selected', stopped', complete'⟩ := second a outcome
    refine ⟨ran ++ ran', ordered.append ordered', ?_, ?_, ?_, ?_⟩
    · rw [Traced.invocations_bind outcome]
      exact List.rel_append invoked invoked'
    · intro site member
      rcases List.mem_append.mp member with early | late
      · exact selected site early
      · exact selected' site late
    · intro err error
      rw [Traced.bind_from outcome] at error
      obtain ⟨before, site, after, rfl, early, fails⟩ := stopped' err error
      refine ⟨order ++ before, site, after, by simp, ?_, fails⟩
      rw [List.append_assoc]
      exact ordered.append early
    · intro before site after split here chosen free
      rcases append_cons_split split with ⟨mid, rfl, rest⟩ | ⟨tail, part⟩
      · refine List.mem_append_right _ (complete' mid site after rest here chosen ?_)
        intro err error other fails member
        exact free err ((Traced.bind_from outcome).trans error) other fails
          (List.mem_append_right _ member)
      · refine List.mem_append_left _ (complete before site tail part here chosen ?_)
        intro err error
        rw [outcome] at error
        cases error

theorem runs_operand {t : Traced α} {operand : Expr} {i : Nat} {order : List Site}
    (below : e.children[i]? = some operand) (reached : Reaches env e i)
    (runs : Runs env operand t order) : Runs env e t (order.map (i :: ·)) := by
  obtain ⟨ran, ordered, invoked, selected, stopped, complete⟩ := runs
  refine ⟨ran.map (i :: ·), ordered.map _, ?_, ?_, ?_, ?_⟩
  · rw [List.forall₂_map_left_iff]
    apply invoked.imp
    rintro site invocation ⟨n, found, invokes⟩
    exact ⟨n, (node_at_operand below site).trans found, invokes⟩
  · intro site member
    obtain ⟨rest, inside, rfl⟩ := List.mem_map.mp member
    exact selected_operand below reached.needed (selected rest inside)
  · intro err error
    obtain ⟨before, site, after, rfl, early, fails⟩ := stopped err error
    refine ⟨before.map (i :: ·), i :: site, after.map (i :: ·), by simp, ?_, ?_⟩
    · simpa using early.map (i :: ·)
    · exact .operand below reached fails
  · rintro before site after split ⟨invocation, n, found, invokes⟩ chosen free
    obtain ⟨front, behind, rfl, rfl, rest⟩ := List.map_eq_append_iff.mp split
    obtain ⟨inner, back, rfl, rfl, rfl⟩ := List.map_eq_cons_iff.mp rest
    rw [node_at_operand below] at found
    refine List.mem_map_of_mem (complete front inner back rfl ⟨invocation, n, found, invokes⟩ ?_ ?_)
    · intro above j rest m parts at_above
      exact chosen (i :: above) j rest m (congrArg (i :: ·) parts)
        ((node_at_operand below above).trans at_above)
    · intro err error other fails member
      exact free err error (i :: other) (.operand below reached fails) (List.mem_map_of_mem member)

theorem idle_operand {i : Nat} (passed : PassesOver env e i) {order : List Site} :
    ∀ site ∈ order.map (i :: ·), Idle env e site := by
  intro site member selected
  obtain ⟨below, -, rfl⟩ := List.mem_map.mp member
  exact absurd passed (selected [] i below e rfl rfl)

theorem idle_root (plain : ∀ invocation, ¬ Invokes env e invocation) :
    ∀ site ∈ [([] : Site)], Idle env e site := by
  rintro site member - invocation ⟨n, here, invokes⟩
  cases List.mem_singleton.mp member
  cases here
  exact plain invocation invokes

end

theorem values_unique {env : Environment} {es : List Expr} {values values' : List Value}
    (first : List.Forall₂ (fun e value => (e.eval env).outcome = .ok value) es values)
    (second : List.Forall₂ (fun e value => (e.eval env).outcome = .ok value) es values') :
    values = values' := by
  induction first generalizing values' with
  | nil =>
    cases second
    rfl
  | cons value values ih =>
    cases second with
    | cons value' values' =>
      cases value.symm.trans value'
      rw [ih values']

theorem call_own_runs {env : Environment} {n : String} {args : List Expr} {span : Span}
    {f : Function} {values : List Value} (found : lookUpFunction env n span = .ok f)
    (given : (evalAll env args).outcome = .ok values) :
    Runs env (.call n args span) ((f.call values).mapError (callError f span) >>= fun result =>
      .ofExcept (callResult n span result)) [[]] := by
  refine runs_own ?_ fun err failed => call_faults found given failed
  have callee : env.get? n = some (.function f) := by
    rw [lookUpFunction] at found
    split at found <;> cases found
    assumption
  have same : ((f.call values).mapError (callError f span) >>= fun result =>
      .ofExcept (callResult n span result)).invocations = (f.call values).invocations := by
    cases outcome : ((f.call values).mapError (callError f span)).outcome with
    | error e =>
      rw [Traced.invocations_stopped outcome]
      rfl
    | ok v =>
      rw [Traced.invocations_bind outcome]
      exact List.append_nil _
  rw [same]
  rcases f.call_runs values with ⟨admitted, one⟩ | ⟨refused, none⟩
  · exact .inr ⟨_, one, .call callee (eval_all_values given) admitted⟩
  · refine .inl ⟨none, ?_⟩
    rintro _ ⟨callee', given', admitted⟩
    cases callee.symm.trans callee'
    obtain rfl := values_unique (eval_all_values given) given'
    exact refused admitted

-- By recursion on the tree. The order of a node is the same whatever is passed over; a run that
-- does not get to a part of it makes no calls there.
mutual

theorem eval_runs (env : Environment) (e : Expr) : Runs env e (e.eval env) e.postorder := by
  match e with
  | literal value span =>
    rw [eval]
    exact runs_pure value (idle_root nofun)
  | name n span =>
    rw [eval, postorder]
    exact runs_own (.inl ⟨rfl, nofun⟩) fun err failed => .name failed
  | group inner span =>
    have reached : Reaches env (.group inner span) 0 := reaches_first nofun
    rw [eval, postorder]
    exact runs_before (runs_operand rfl reached (eval_runs env inner)) (idle_root nofun)
  | unary operator operand span =>
    have reached : Reaches env (.unary operator operand span) 0 := reaches_first nofun
    rw [eval, postorder]
    apply runs_bind (runs_operand rfl reached (eval_runs env operand))
    intro v value
    exact runs_own (.inl ⟨rfl, nofun⟩) fun err failed => .unary value failed
  | binary operator left right span =>
    have reached : Reaches env (.binary operator left right span) 0 := reaches_first nofun
    rw [eval, postorder]
    apply runs_bind (runs_operand rfl reached (eval_runs env left))
    intro l value
    have onward := reaches_next reached rfl (.inr ⟨l, value⟩) nofun
    apply runs_bind (runs_operand rfl onward (eval_runs env right))
    intro r value'
    exact runs_own (.inl ⟨rfl, nofun⟩) fun err failed => .binary value value' failed
  | logical operator left right span =>
    have reached : Reaches env (.logical operator left right span) 0 := reaches_first nofun
    rw [eval, postorder]
    apply runs_bind (runs_operand rfl reached (eval_runs env left))
    intro l value
    have needed (undecided : operator.decides l = false) :
        Runs env (.logical operator left right span)
          (right.eval env >>= fun r => pure (Value.boolean r.isTruthy))
          (right.postorder.map (1 :: ·) ++ [[]]) := by
      have onward := reaches_next reached rfl (.inr ⟨l, value⟩) (right_needed value undecided)
      exact runs_bind (runs_operand rfl onward (eval_runs env right)) fun r _ =>
        runs_pure _ (idle_root nofun)
    have needless (decided : operator.decides l = true) :
        ∀ site ∈ right.postorder.map (1 :: ·) ++ [[]],
          Idle env (.logical operator left right span) site :=
      List.forall_mem_append.mpr ⟨idle_operand (.right value decided), idle_root nofun⟩
    cases operator <;> cases truth : l.isTruthy
    · exact runs_pure _ (needless (by rw [LogicalOp.decides, truth, Bool.not_false]))
    · exact needed (by rw [LogicalOp.decides, truth, Bool.not_true])
    · exact needed truth
    · exact runs_pure _ (needless truth)
  | ternary condition whenTrue whenFalse span =>
    have reached : Reaches env (.ternary condition whenTrue whenFalse span) 0 :=
      reaches_first nofun
    rw [eval, postorder]
    apply runs_bind (runs_operand rfl reached (eval_runs env condition))
    intro c value
    by_cases truth : c.isTruthy = true
    · have selected := reaches_next reached rfl (.inr ⟨c, value⟩) (when_true_needed value truth)
      rw [if_pos truth]
      exact runs_before (runs_operand rfl selected (eval_runs env whenTrue))
        (List.forall_mem_append.mpr ⟨idle_operand (.whenFalse value truth), idle_root nofun⟩)
    · have falsy : c.isTruthy = false := Bool.eq_false_iff.mpr truth
      have selected : Reaches env (.ternary condition whenTrue whenFalse span) 2 := by
        constructor
        · rintro (_ | _ | ⟨value', holds⟩)
          cases value.symm.trans value'
          exact truth holds
        · intro j earlier operand found
          match j with
          | 0 =>
            cases found
            exact .inr ⟨c, value⟩
          | 1 => exact .inl (.whenTrue value falsy)
      rw [if_neg truth]
      exact runs_within (runs_operand rfl selected (eval_runs env whenFalse))
        (List.forall_mem_append.mpr ⟨idle_operand (.whenTrue value falsy), idle_root nofun⟩)
  | call n args span =>
    rw [postorder]
    cases found : lookUpFunction env n span with
    | error err =>
      have own : Runs env (.call n args span) ((call n args span).eval env) [[]] := by
        rw [eval, found]
        refine runs_own (.inl ⟨rfl, ?_⟩) ?_
        · rintro _ ⟨callee, -, -⟩
          rw [lookUpFunction, callee] at found
          cases found
        · rintro err' ⟨⟩
          exact .callee found
      have passed : ∀ site ∈ postorderFrom 0 args ++ [], Idle env (.call n args span) site := by
        intro site member selected
        rw [List.append_nil] at member
        obtain ⟨j, arg, below, -, -, rfl⟩ := mem_postorder_from.mp member
        exact absurd (.args found) (selected [] (0 + j) below _ rfl rfl)
      simpa using runs_within own passed
    | ok f =>
      have operands (j : Nat) : (call n args span).children[0 + j]? = args[j]? := by
        rw [Nat.zero_add]
        rfl
      rw [eval_call found]
      apply runs_bind (eval_all_runs env (.call n args span) 0 args operands
        (no_argument_passed found args) nofun)
      intro values given
      exact call_own_runs found given

theorem eval_all_runs (env : Environment) (e : Expr) (i : Nat) (es : List Expr)
    (operands : ∀ j : Nat, e.children[i + j]? = es[j]?) (needed : ∀ j, ¬ PassesOver env e j)
    (before : ∀ j < i, ∀ operand, e.children[j]? = some operand → operand.HasValue env) :
    Runs env e (evalAll env es) (postorderFrom i es) := by
  match es with
  | [] =>
    rw [evalAll]
    exact runs_pure _ nofun
  | first :: es =>
    have below : e.children[i]? = some first := operands 0
    have reached : Reaches env e i := ⟨needed i, fun j earlier operand found =>
      .inr (before j earlier operand found)⟩
    rw [evalAll, postorderFrom]
    apply runs_bind (runs_operand below reached (eval_runs env first))
    intro v value
    have later := eval_all_runs env e (i + 1) es
      (fun j => by rw [Nat.add_assoc, Nat.add_comm 1, operands]; rfl) needed (by
        intro j earlier operand found
        rcases Nat.lt_succ_iff_lt_or_eq.mp earlier with earlier | rfl
        · exact before j earlier operand found
        · cases below.symm.trans found
          exact ⟨v, value⟩)
    rw [← List.append_nil (postorderFrom (i + 1) es)]
    exact runs_bind later fun vs _ => runs_pure _ nofun

end

end Expr

open Formula.Expr (Site FailsAt)

/-- The functions that an evaluation runs are those of calls in the order of their places, each run
once, in no operand that is passed over, on the values of the arguments and within the contract. The
evaluation fails where an operation does, and no call behind that place has run; all others that can
run have run. -/
theorem natives_run_in_order (env : Environment) (e : Expr) :
    ∃ ran : List Site, ran.Sublist e.postorder ∧ ran.Nodup ∧
      List.Forall₂ (Expr.InvokedAt env e) ran (e.eval env).invocations ∧
      (∀ site ∈ ran, Expr.Selected env e site) ∧
      (∀ err, (e.eval env).outcome = .error err ↔ ∃ site, FailsAt env e site err) ∧
      (∀ site err, FailsAt env e site err → ∃ before after,
        e.postorder = before ++ site :: after ∧ ran.Sublist (before ++ [site])) ∧
      ∀ site invocation, Expr.InvokedAt env e site invocation → Expr.Selected env e site →
        (∀ other err, FailsAt env e other err →
          ∀ before after, e.postorder = before ++ site :: after → other ∉ before) →
        site ∈ ran := by
  obtain ⟨ran, ordered, invoked, selected, stopped, complete⟩ := Expr.eval_runs env e
  refine ⟨ran, ordered, ordered.nodup (Expr.postorder_nodup e), invoked, selected, ?_, ?_, ?_⟩
  · intro err
    constructor
    · intro failed
      obtain ⟨before, site, after, -, -, fails⟩ := stopped err failed
      exact ⟨site, fails⟩
    · rintro ⟨site, fails⟩
      exact Expr.fails_at_outcome fails
  · intro site err fails
    obtain ⟨before, other, after, order, early, fails'⟩ :=
      stopped err (Expr.fails_at_outcome fails)
    rw [Expr.fails_at_unique fails fails']
    exact ⟨before, after, order, early⟩
  · intro site invocation here chosen first
    have ⟨n, found, _⟩ := here
    obtain ⟨before, after, split⟩ := List.append_of_mem (Expr.mem_postorder.mpr ⟨n, found⟩)
    exact complete before site after split ⟨invocation, here⟩ chosen fun err _ other fails =>
      first other err fails before after split

example : (evaluateTraced "abs(1) > max(2, abs(0)) && sqrt(4) > 1"
    Catalogue.environment).invocations = [("abs", [.number ⟨1, 0⟩]), ("abs", [.number ⟨0, 0⟩]),
      ("max", [.number ⟨2, 0⟩, .number ⟨0, 0⟩])] := by
  decide +kernel

end Formula
