import Formula.Evaluation
import Formula.Proofs.CanonicalText
import Formula.Proofs.ExactPower
import Formula.Proofs.FailingNode

set_option autoImplicit false

namespace Formula

namespace Exact

inductive Value where
  | number (value : ℚ)
  | text (value : String)
  | boolean (value : Bool)
deriving DecidableEq

def Value.kind : Value → Kind
  | .number _ => .number
  | .text _ => .string
  | .boolean _ => .boolean

def Value.isTruthy : Value → Bool
  | .number _ => true
  | .text s => s != ""
  | .boolean b => b

inductive Failure where
  | reported (stop : Stop Error)
  | undefined
deriving DecidableEq

def report {α : Type} (cause : Cause) (span : Span) : Except Failure α :=
  .error (.reported (.located cause span))

def power (base exponent : ℚ) (span : Span) : Except Failure Value :=
  if exponent.den ≠ 1 then .error .undefined
  else if base = 0 ∧ exponent < 0 then report .divisionByZero span
  else .ok (.number (base ^ exponent.num))

def applyBinary (operator : BinaryOp) (left right : Value) (span : Span) : Except Failure Value :=
  match operator, left, right with
  | .add, .number l, .number r => .ok (.number (l + r))
  | .add, .text l, .text r => .ok (.text (l ++ r))
  | .add, .text l, .number r => .ok (.text (l ++ text r))
  | .add, .number l, .text r => .ok (.text (text l ++ r))
  | .subtract, .number l, .number r => .ok (.number (l - r))
  | .multiply, .number l, .number r => .ok (.number (l * r))
  | .divide, .number l, .number r =>
    if r = 0 then report .divisionByZero span else .ok (.number (l / r))
  | .remainder, .number l, .number r =>
    if r = 0 then report .divisionByZero span
    else .ok (.number (l - r * truncated (l / r)))
  | .power, .number l, .number r => power l r span
  | .equal, .number l, .number r => .ok (.boolean (l = r))
  | .equal, .text l, .text r => .ok (.boolean (l = r))
  | .equal, .boolean l, .boolean r => .ok (.boolean (l = r))
  | .notEqual, .number l, .number r => .ok (.boolean (l ≠ r))
  | .notEqual, .text l, .text r => .ok (.boolean (l ≠ r))
  | .notEqual, .boolean l, .boolean r => .ok (.boolean (l ≠ r))
  | .less, .number l, .number r => .ok (.boolean (l < r))
  | .lessEqual, .number l, .number r => .ok (.boolean (l ≤ r))
  | .greater, .number l, .number r => .ok (.boolean (l > r))
  | .greaterEqual, .number l, .number r => .ok (.boolean (l ≥ r))
  | _, _, _ => report (.unsupportedOperation operator.symbol left.kind right.kind) span

def applyUnary (operator : UnaryOp) (operand : Value) (span : Span) : Except Failure Value :=
  match operator, operand with
  | .not, _ => .ok (.boolean !operand.isTruthy)
  | .plus, _ => .ok operand
  | .negate, .number q => .ok (.number (-q))
  | .negate, _ => report (.unsupportedUnaryOperation operator.symbol operand.kind) span

end Exact

def Value.exact : Value → Exact.Value
  | .number d => .number d.toRat
  | .text s => .text s
  | .boolean b => .boolean b

namespace Exact

def eval (env : Environment) : Expr → Except Failure Value
  | .literal value _ => .ok value.exact
  | .name n span =>
    match lookUp env n span with
    | .ok value => .ok value.exact
    | .error e => .error (.reported e)
  | .group inner _ => eval env inner
  | .unary operator operand span => do
    let value ← eval env operand
    applyUnary operator value span
  | .binary operator left right span => do
    let l ← eval env left
    let r ← eval env right
    applyBinary operator l r span
  | .logical .or left right _ => do
    let l ← eval env left
    if l.isTruthy then .ok (.boolean true)
    else do
      let r ← eval env right
      .ok (.boolean r.isTruthy)
  | .logical .and left right _ => do
    let l ← eval env left
    if l.isTruthy then do
      let r ← eval env right
      .ok (.boolean r.isTruthy)
    else .ok (.boolean false)
  | .ternary condition whenTrue whenFalse _ => do
    let c ← eval env condition
    if c.isTruthy then eval env whenTrue else eval env whenFalse
  | .call _ _ _ => .error .undefined

def Natural (env : Environment) (e : Expr) : Prop :=
  ∀ d, (e.eval env).outcome = .ok (.number d) → ∃ n : Nat, d.toRat = n

-- Trees without quotients and calls, and with natural exponents only.
def Covered (env : Environment) : Expr → Prop
  | .literal _ _ => True
  | .name _ _ => True
  | .group inner _ => Covered env inner
  | .unary _ operand _ => Covered env operand
  | .binary operator left right _ =>
    Covered env left ∧ Covered env right ∧ operator ≠ .divide ∧
      (operator = .power → Natural env right)
  | .logical _ left right _ => Covered env left ∧ Covered env right
  | .ternary condition whenTrue whenFalse _ =>
    Covered env condition ∧ Covered env whenTrue ∧ Covered env whenFalse
  | .call _ _ _ => False

-- A value that agrees is the same number, not the same form; a panic and a report that a number is
-- out of range agree with everything.
def Agrees : Result Formula.Value → Except Failure Value → Prop
  | .ok value, exact => exact = .ok value.exact
  | .error (.failed e), exact =>
    (∃ operation, e.cause = .numberOutOfRange operation) ∨ exact = .error (.reported (.failed e))
  | .error .panicked, _ => True

theorem agrees_bind {t : Traced Formula.Value} {exact : Except Failure Value}
    {next : Formula.Value → Traced Formula.Value} {next' : Value → Except Failure Value}
    (first : Agrees t.outcome exact)
    (further : ∀ value, t.outcome = .ok value → Agrees (next value).outcome (next' value.exact)) :
    Agrees (t >>= next).outcome (exact >>= next') := by
  change Agrees (t.andThen next).outcome _
  rw [Traced.andThen]
  cases outcome : t.outcome with
  | ok value =>
    rw [outcome] at first
    rw [show exact = .ok value.exact from first]
    exact further value outcome
  | error stop =>
    rw [outcome] at first
    cases stop with
    | panicked => trivial
    | failed e =>
      rcases first with range | same
      · exact .inl range
      · rw [same]
        exact .inr rfl

theorem exact_truthy (v : Formula.Value) : v.exact.isTruthy = v.isTruthy := by
  cases v with
  | number d => rfl
  | boolean b => rfl
  | text s =>
    simp only [Formula.Value.exact, Value.isTruthy, Formula.Value.isTruthy]
    rw [Bool.eq_iff_iff, bne_iff_ne, Bool.not_eq_true', ← Bool.not_eq_true, String.isEmpty_iff]

theorem checked_agrees {operator : BinaryOp} {span : Span} {d : Decimal} {q : ℚ}
    (value : d.toRat = q) : Agrees (checkedNumber operator span d) (.ok (.number q)) := by
  rw [checkedNumber, Decimal.ensureInRange, Decimal.byRange]
  split
  · rw [← value]
    rfl
  · exact .inl ⟨operator.symbol, rfl⟩
  · trivial

theorem power_agrees {base exponent : Decimal} {n : Nat} (value : exponent.toRat = n)
    (span : Span) :
    Agrees (atNode span ((base.power exponent).map .number)) (power base.toRat exponent.toRat span)
    := by
  have exact : power base.toRat exponent.toRat span = .ok (.number (base.toRat ^ n)) := by
    rw [power, value, if_neg (by simp), if_neg (by simp), Rat.num_natCast, zpow_natCast]
  rw [exact]
  rcases Decimal.power_value base value with ⟨result, computed, exactly⟩ | range | ⟨-, panics⟩
  · rw [computed, ← exactly]
    rfl
  · rw [range]
    exact .inl ⟨"^", rfl⟩
  · rw [panics]
    trivial

theorem remainder_agrees (l r : Decimal) (span : Span) :
    Agrees
      (if r.isZero then .error (.located .divisionByZero span)
        else checkedNumber .remainder span (l % r))
      (applyBinary .remainder (.number l.toRat) (.number r.toRat) span) := by
  by_cases zero : r.isZero
  · have nothing := (Decimal.is_zero_iff r).mp zero
    simp only [applyBinary]
    rw [if_pos zero, if_pos nothing]
    exact .inr rfl
  · have something := mt (Decimal.is_zero_iff r).mpr zero
    simp only [applyBinary]
    rw [if_neg zero, if_neg something]
    exact checked_agrees (Decimal.rem_value l something)

theorem unary_agrees (operator : UnaryOp) (operand : Formula.Value) (span : Span) :
    Agrees (Formula.applyUnary operator operand span)
      (applyUnary operator operand.exact span) := by
  cases operator with
  | not =>
    rw [Formula.applyUnary, applyUnary, exact_truthy]
    rfl
  | plus => rfl
  | negate =>
    cases operand with
    | number d =>
      change _ = _
      rw [Formula.Value.exact, applyUnary, Formula.Value.exact, Decimal.neg_value]
    | text s => exact .inr rfl
    | boolean b => exact .inr rfl

theorem decision_agrees {b : Bool} {p : Prop} [Decidable p] (same : b = true ↔ p) :
    Agrees (.ok (.boolean b)) (.ok (.boolean (decide p))) := by
  have equal : b = decide p := by rw [Bool.eq_iff_iff, same, decide_eq_true_iff]
  rw [equal]
  rfl

theorem negation_agrees {b : Bool} {p : Prop} [Decidable p] (same : b = true ↔ p) :
    Agrees (.ok (.boolean !b)) (.ok (.boolean (decide ¬ p))) := by
  apply decision_agrees
  rw [← same, Bool.not_eq_true', Bool.not_eq_true]

theorem written_agrees (d : Decimal) (join : String → String) :
    Agrees (d.write.map fun s => .text (join s)) (.ok (.text (join (text d.toRat)))) := by
  rw [Decimal.write]
  split
  · rw [Decimal.text_eq d]
    rfl
  · trivial

theorem binary_agrees {operator : BinaryOp} (l r : Formula.Value) (span : Span)
    (whole : operator ≠ .divide)
    (natural : operator = .power → ∀ d, r = .number d → ∃ n : Nat, d.toRat = n) :
    Agrees (Formula.applyBinary operator l r span)
      (applyBinary operator l.exact r.exact span) := by
  cases operator with
  | divide => exact absurd rfl whole
  | add =>
    cases l <;> cases r
    case number.number a b => exact checked_agrees (Decimal.add_value a b)
    case text.number s b => exact written_agrees b (s ++ ·)
    case number.text a s => exact written_agrees a (· ++ s)
    case text.text => rfl
    all_goals exact .inr rfl
  | subtract =>
    cases l <;> cases r
    case number.number a b => exact checked_agrees (Decimal.sub_value a b)
    all_goals exact .inr rfl
  | multiply =>
    cases l <;> cases r
    case number.number a b => exact checked_agrees (Decimal.mul_value a b)
    all_goals exact .inr rfl
  | remainder =>
    cases l <;> cases r
    case number.number a b => exact remainder_agrees a b span
    all_goals exact .inr rfl
  | power =>
    cases l <;> cases r
    case number.number a b =>
      obtain ⟨n, value⟩ := natural rfl b rfl
      exact power_agrees value span
    all_goals exact .inr rfl
  | equal =>
    cases l <;> cases r
    case number.number a b => exact decision_agrees (Decimal.same_number_iff a b)
    case text.text => exact decision_agrees beq_iff_eq
    case boolean.boolean => exact decision_agrees beq_iff_eq
    all_goals exact .inr rfl
  | notEqual =>
    cases l <;> cases r
    case number.number a b => exact negation_agrees (Decimal.same_number_iff a b)
    case text.text => exact negation_agrees beq_iff_eq
    case boolean.boolean => exact negation_agrees beq_iff_eq
    all_goals exact .inr rfl
  | less =>
    cases l <;> cases r
    case number.number a b => exact decision_agrees (Decimal.less_iff a b)
    all_goals exact .inr rfl
  | lessEqual =>
    cases l <;> cases r
    case number.number a b => exact decision_agrees (Decimal.less_or_equal_iff a b)
    all_goals exact .inr rfl
  | greater =>
    cases l <;> cases r
    case number.number a b => exact decision_agrees (Decimal.less_iff b a)
    all_goals exact .inr rfl
  | greaterEqual =>
    cases l <;> cases r
    case number.number a b => exact decision_agrees (Decimal.less_or_equal_iff b a)
    all_goals exact .inr rfl

theorem lookup_agrees (env : Environment) (n : String) (span : Span) :
    Agrees (lookUp env n span) (eval env (.name n span)) := by
  rw [eval]
  rcases lookUp env n span with (e | _) | value
  · exact .inr rfl
  · trivial
  · rfl

theorem truth_agrees (v : Formula.Value) :
    Agrees (.ok (.boolean v.isTruthy)) (.ok (.boolean v.exact.isTruthy)) := by
  rw [exact_truthy]
  rfl

theorem eval_agrees (env : Environment) (e : Expr) (covered : Covered env e) :
    Agrees (e.eval env).outcome (eval env e) := by
  match e with
  | .literal value span => rfl
  | .name n span => exact lookup_agrees env n span
  | .group inner span => exact eval_agrees env inner covered
  | .unary operator operand span =>
    rw [Expr.eval, eval]
    apply agrees_bind (eval_agrees env operand covered)
    intro value _
    exact unary_agrees operator value span
  | .binary operator left right span =>
    obtain ⟨covered_left, covered_right, whole, natural⟩ := covered
    rw [Expr.eval, eval]
    apply agrees_bind (eval_agrees env left covered_left)
    intro l _
    apply agrees_bind (eval_agrees env right covered_right)
    intro r evaluated
    apply binary_agrees l r span whole
    rintro power d rfl
    exact natural power d evaluated
  | .logical operator left right span =>
    have right_agrees : Agrees
        (right.eval env >>= fun r => pure (.boolean r.isTruthy) : Traced Formula.Value).outcome
        (eval env right >>= fun r => .ok (.boolean r.isTruthy)) := by
      apply agrees_bind (eval_agrees env right covered.2)
      intro r _
      exact truth_agrees r
    cases operator with
    | or =>
      rw [Expr.eval, eval]
      apply agrees_bind (eval_agrees env left covered.1)
      intro l _
      rw [exact_truthy]
      cases l.isTruthy with
      | true => rfl
      | false => exact right_agrees
    | and =>
      rw [Expr.eval, eval]
      apply agrees_bind (eval_agrees env left covered.1)
      intro l _
      rw [exact_truthy]
      cases l.isTruthy with
      | true => exact right_agrees
      | false => rfl
  | .ternary condition whenTrue whenFalse span =>
    rw [Expr.eval, eval]
    apply agrees_bind (eval_agrees env condition covered.1)
    intro c _
    rw [exact_truthy]
    cases c.isTruthy with
    | true => exact eval_agrees env whenTrue covered.2.1
    | false => exact eval_agrees env whenFalse covered.2.2
  | .call n args span => exact covered.elim

def Overflows (operator : BinaryOp) (left right : Formula.Value) : Prop :=
  match operator, left, right with
  | .add, .number l, .number r => (l + r).scale = Decimal.lowestScale
  | .add, .text _, .number d | .add, .number d, .text _ => d.fitsText = false
  | .subtract, .number l, .number r => (l - r).scale = Decimal.lowestScale
  | .multiply, .number l, .number r => (l * r).scale = Decimal.lowestScale
  | .remainder, .number l, .number r => (l % r).scale = Decimal.lowestScale
  | .power, .number l, .number r => Decimal.LowestPower l r
  | _, _, _ => False

theorem checked_panics {operator : BinaryOp} {span : Span} {d : Decimal}
    (panics : checkedNumber operator span d = .error .panicked) :
    d.scale = Decimal.lowestScale := by
  rw [checkedNumber, Decimal.ensureInRange, Decimal.byRange] at panics
  split at panics
  · cases panics
  · cases panics
  · exact Decimal.in_range_none.mp ‹_›

theorem written_panics {d : Decimal} {join : String → Formula.Value}
    (panics : (d.write.map join : Result Formula.Value) = .error .panicked) :
    d.fitsText = false := by
  rw [Decimal.write] at panics
  split at panics
  · cases panics
  · exact Bool.eq_false_iff.mpr ‹_›

theorem binary_panics {operator : BinaryOp} {l r : Formula.Value} {span : Span}
    (whole : operator ≠ .divide)
    (natural : operator = .power → ∀ d, r = .number d → ∃ n : Nat, d.toRat = n)
    (panics : Formula.applyBinary operator l r span = .error .panicked) :
    Overflows operator l r := by
  cases operator with
  | divide => exact absurd rfl whole
  | power =>
    cases l <;> cases r
    case number.number a b =>
      obtain ⟨n, value⟩ := natural rfl b rfl
      rw [Formula.applyBinary] at panics
      rcases Decimal.power_value a value with ⟨result, computed, -⟩ | range | ⟨lowest, -⟩
      · rw [computed] at panics
        cases panics
      · rw [range] at panics
        cases panics
      · exact lowest
    all_goals cases panics
  | remainder =>
    cases l <;> cases r
    case number.number a b =>
      rw [Formula.applyBinary] at panics
      split at panics
      · cases panics
      · exact checked_panics panics
    all_goals cases panics
  | add =>
    cases l <;> cases r
    case number.number => exact checked_panics panics
    case text.number => exact written_panics panics
    case number.text => exact written_panics panics
    all_goals cases panics
  | subtract | multiply =>
    cases l <;> cases r
    case number.number => exact checked_panics panics
    all_goals cases panics
  | _ => cases l <;> cases r <;> cases panics

theorem covered_node {env : Environment} {e n : Expr} (covered : Covered env e)
    (node : n ∈ e.nodes) : Covered env n := by
  rcases Expr.mem_nodes.mp node with rfl | ⟨child, below, node⟩
  · exact covered
  · have smaller := Expr.child_smaller below
    refine covered_node (e := child) ?_ node
    cases e with
    | literal | name => cases below
    | group | unary =>
      obtain rfl := List.mem_singleton.mp below
      exact covered
    | binary operator left right span =>
      rcases List.mem_pair.mp below with rfl | rfl
      · exact covered.1
      · exact covered.2.1
    | logical operator left right span =>
      rcases List.mem_pair.mp below with rfl | rfl
      · exact covered.1
      · exact covered.2
    | ternary condition whenTrue whenFalse span =>
      simp only [Expr.children, List.mem_cons, List.not_mem_nil, or_false] at below
      rcases below with rfl | rfl | rfl
      · exact covered.1
      · exact covered.2.1
      · exact covered.2.2
    | call => exact covered.elim
termination_by sizeOf e

theorem eval_panics {env : Environment} {e : Expr} (covered : Covered env e)
    (panics : (e.eval env).outcome = .error .panicked) :
    ∃ operator left right span l r, .binary operator left right span ∈ e.nodes ∧
      (left.eval env).outcome = .ok l ∧ (right.eval env).outcome = .ok r ∧
      Overflows operator l r := by
  obtain ⟨n, before, after, order, -, faults⟩ := (Expr.eval_follows env e).error _ panics
  have node : n ∈ e.nodes := Expr.visited_node e (by rw [order]; simp)
  have own := covered_node covered node
  generalize stop : Stop.panicked = s at faults
  cases faults with
  | name failed =>
    rw [lookUp] at failed
    split at failed <;> cases failed <;> cases stop
  | @unary operator operand span v _ value failed =>
    subst stop
    cases operator <;> cases v <;> cases failed
  | binary first second failed =>
    subst stop
    refine ⟨_, _, _, _, _, _, node, first, second, binary_panics own.2.2.1 ?_ failed⟩
    rintro power d rfl
    exact own.2.2.2 power d second
  | callee | host | result => exact own.elim

/-- A value is the exact one, and so is an error, if it does not report a number out of range. There
is neither only where words overflow. -/
theorem evaluation_exact (env : Environment) (e : Expr) (covered : Covered env e) :
    (∀ value, (e.eval env).outcome = .ok value → eval env e = .ok value.exact) ∧
      (∀ error, (e.eval env).outcome = .error (.failed error) →
        (∀ operation, error.cause ≠ .numberOutOfRange operation) →
        eval env e = .error (.reported (.failed error))) ∧
      ((e.eval env).outcome = .error .panicked →
        ∃ operator left right span l r, .binary operator left right span ∈ e.nodes ∧
          (left.eval env).outcome = .ok l ∧ (right.eval env).outcome = .ok r ∧
          Overflows operator l r) := by
  have agrees := eval_agrees env e covered
  refine ⟨?_, ?_, eval_panics covered⟩
  · intro value evaluated
    rw [evaluated] at agrees
    exact agrees
  · intro error failed other
    rw [failed] at agrees
    rcases agrees with ⟨operation, range⟩ | same
    · exact absurd range (other operation)
    · exact same

def signedPower : Expr :=
  let number (unscaled scale : Int) : Expr := .literal (.number ⟨unscaled, scale⟩) ⟨0, 0⟩
  let text (s : String) : Expr := .literal (.text s) ⟨0, 0⟩
  let base := .group (.binary .subtract (number 1 0) (number 2 0) ⟨0, 0⟩) ⟨0, 0⟩
  let power := .binary .power base (number 3 0) ⟨0, 0⟩
  let product := .binary .multiply power (number 150 2) ⟨0, 0⟩
  .binary .equal (.binary .add (text "x") product ⟨0, 0⟩) (text "x-1.5") ⟨0, 0⟩

theorem evaluation_exact_of_signed_power :
    Covered .empty signedPower ∧ (signedPower.eval .empty).outcome = .ok (.boolean true) ∧
      eval .empty signedPower = .ok (.boolean true) := by
  have natural : Natural .empty (.literal (.number ⟨3, 0⟩) ⟨0, 0⟩) := by
    rintro d ⟨⟩
    exact ⟨3, by norm_num [Decimal.toRat]⟩
  have covered : Covered .empty signedPower := by
    simp [signedPower, Covered, natural]
  have evaluated : (signedPower.eval .empty).outcome = .ok (.boolean true) := by
    decide +kernel
  exact ⟨covered, evaluated, (evaluation_exact .empty signedPower covered).1 _ evaluated⟩

end Exact

end Formula
