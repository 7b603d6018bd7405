import Formula.Evaluation
import Formula.Proofs.Declarations
import Formula.Proofs.ParserGrammar
import Formula.Proofs.PowerRange

set_option autoImplicit false

namespace Formula

def Value.InRange (v : Value) : Prop := ∀ d, v = .number d → d.inRange = some true

theorem number_in_range {d : Decimal} (range : d.inRange = some true) : (Value.number d).InRange := by
  rintro _ ⟨⟩
  exact range

theorem text_in_range (s : String) : (Value.text s).InRange := nofun

theorem boolean_in_range (b : Bool) : (Value.boolean b).InRange := nofun

namespace Environment

inductive Built : Environment → Prop where
  | empty : Built .empty
  | addVariable {env next : Environment} {name : String} {value : Value} (built : Built env)
      (declared : env.declareVariable name value = .ok next) : Built next
  | addFunction {env next : Environment} {f : Function} (built : Built env)
      (declared : env.declareFunction f = .ok next) : Built next
  | addJson {env : Environment} (built : Built env) (entries : List (String × Json)) :
      Built (env.declareJson entries).1
  | install {env : Environment} (built : Built env) : Built (Catalogue.install env).1

def InRange (env : Environment) : Prop :=
  ∀ entry ∈ env.symbols, ∀ v, entry.2 = .value v → v.InRange

theorem declare_in_range {env next : Environment} {name : String} {symbol : Symbol}
    (range : env.InRange) (fresh : ∀ v, symbol = .value v → v.InRange)
    (declared : env.declare name symbol = .ok next) : next.InRange := by
  unfold declare at declared
  split at declared
  · cases declared
  · cases declared
    intro entry member
    rcases mem_insert_at.mp member with rfl | old
    · exact fresh
    · exact range entry old

theorem declare_variable_of_range {env : Environment} {name : String} {value : Value}
    (range : value.InRange) :
    env.declareVariable name value = env.declare name (.value value) := by
  cases value with
  | text | boolean => rfl
  | number d => rw [declareVariable, Decimal.by_range_in (range d rfl)]

theorem range_of_declared {env next : Environment} {name : String} {value : Value}
    (declared : env.declareVariable name value = .ok next) : value.InRange :=
  ((declare_variable_ok_iff env name value).mp ⟨next, declared⟩).2

theorem declares_in_range {env next : Environment} (range : env.InRange)
    (declares : Declares env next) : next.InRange := by
  cases declares with
  | value declared =>
    apply declare_in_range range _ (variable_declared declared)
    rintro v ⟨⟩
    exact range_of_declared declared
  | function declared =>
    apply declare_in_range range _ declared
    intro v same
    cases same

theorem built_in_range {env : Environment} (built : env.Built) : env.InRange := by
  have one (env next : Environment) : env.InRange → Declares env next → next.InRange :=
    declares_in_range
  induction built with
  | empty => exact nofun
  | addVariable built declared range => exact one _ _ range (.value declared)
  | addFunction built declared range => exact one _ _ range (.function declared)
  | addJson built entries range => exact declare_json_keeps one range entries
  | install built range => exact install_keeps one range

theorem looked_up_in_range {env : Environment} {name : String} {span : Span} {v : Value}
    (range : env.InRange) (found : lookUp env name span = .ok v) : v.InRange := by
  unfold lookUp at found
  cases symbol : env.get? name with
  | none =>
    rw [symbol] at found
    cases found
  | some s =>
    rw [symbol] at found
    cases s with
    | function f => cases found
    | value w =>
      cases found
      obtain ⟨entry, first, second⟩ := Option.map_eq_some_iff.mp symbol
      exact range entry (List.mem_of_find?_eq_some first) _ second

end Environment

theorem at_node_ok {α : Type} {span : Span} {result : Result α} {a : α}
    (ok : atNode span result = .ok a) : result = .ok a := by
  cases result with
  | error e => cases ok
  | ok b =>
    cases ok
    rfl

theorem computed_in_range {result : Result Decimal} {span : Span} {v : Value}
    (range : ∀ d, result = .ok d → d.inRange = some true)
    (ok : atNode span (result.map .number) = .ok v) : v.InRange := by
  have ok := at_node_ok ok
  cases computed : result with
  | error e =>
    rw [computed] at ok
    cases ok
  | ok d =>
    rw [computed] at ok
    cases ok
    exact number_in_range (range d computed)

theorem ensured_in_range {d : Decimal} {operation : String} {span : Span} {v : Value}
    (ok : atNode span ((d.ensureInRange operation).map .number) = .ok v) : v.InRange :=
  computed_in_range (fun _ computed => (Decimal.ensured computed).2) ok

theorem divided_in_range {operator : BinaryOp} {span : Span} {divisor result : Decimal} {v : Value}
    (ok : (if divisor.isZero then .error (.located .divisionByZero span)
      else checkedNumber operator span result) = .ok v) : v.InRange := by
  by_cases zero : divisor.isZero = true
  · rw [if_pos zero] at ok
    cases ok
  · rw [if_neg zero] at ok
    exact ensured_in_range ok

theorem binary_in_range {operator : BinaryOp} {l r : Value} {span : Span} {v : Value}
    (ok : applyBinary operator l r span = .ok v) : v.InRange := by
  cases operator with
  | add =>
    cases l <;> cases r
    case number.number => exact ensured_in_range ok
    case text.number s d =>
      rw [applyBinary, Decimal.write] at ok
      split at ok <;> cases ok
      exact text_in_range _
    case number.text d s =>
      rw [applyBinary, Decimal.write] at ok
      split at ok <;> cases ok
      exact text_in_range _
    all_goals
      cases ok
      try exact text_in_range _
  | subtract | multiply =>
    cases l <;> cases r
    case number.number => exact ensured_in_range ok
    all_goals cases ok
  | divide | remainder =>
    cases l <;> cases r
    case number.number => exact divided_in_range ok
    all_goals cases ok
  | power =>
    cases l <;> cases r
    case number.number =>
      exact computed_in_range (fun _ computed => Decimal.power_in_range computed) ok
    all_goals cases ok
  | equal | notEqual | less | lessEqual | greater | greaterEqual =>
    cases l <;> cases r
    all_goals
      cases ok
      try exact boolean_in_range _

theorem unary_in_range {operator : UnaryOp} {operand : Value} {span : Span} {v : Value}
    (range : operand.InRange) (ok : applyUnary operator operand span = .ok v) : v.InRange := by
  cases operator with
  | not =>
    cases ok
    exact boolean_in_range _
  | plus =>
    cases ok
    exact range
  | negate =>
    cases operand with
    | text s => cases ok
    | boolean b => cases ok
    | number d =>
      cases ok
      apply number_in_range
      rw [Decimal.neg_in_range]
      exact range d rfl

theorem call_result_in_range {name : String} {span : Span} {result v : Value}
    (ok : callResult name span result = .ok v) : v.InRange := by
  cases result with
  | number d => exact ensured_in_range ok
  | text s =>
    cases ok
    exact text_in_range s
  | boolean b =>
    cases ok
    exact boolean_in_range b

def Event.args : Event → List Value
  | .verified _ args => args
  | .invoked _ args => args

structure Traced.Sound {α : Type} (result : α → Prop) (t : Traced α) : Prop where
  value : ∀ a, t.outcome = .ok a → result a
  host : ∀ event ∈ t.events, ∀ v ∈ event.args, v.InRange

section

variable {α β : Type} {p : α → Prop} {q : β → Prop}

theorem sound_pure {a : α} (holds : p a) : (pure a : Traced α).Sound p := by
  constructor
  · rintro _ ⟨⟩
    exact holds
  · nofun

theorem sound_of_except {outcome : Result α} (holds : ∀ a, outcome = .ok a → p a) :
    (Traced.ofExcept outcome).Sound p :=
  ⟨holds, nofun⟩

theorem sound_bind {t : Traced α} {next : α → Traced β} (first : t.Sound p)
    (further : ∀ a, p a → (next a).Sound q) : (t >>= next).Sound q := by
  change (t.andThen next).Sound q
  rw [Traced.andThen]
  cases outcome : t.outcome with
  | error e => exact ⟨nofun, first.host⟩
  | ok a =>
    have second := further a (first.value a outcome)
    refine ⟨second.value, ?_⟩
    intro event member
    rcases List.mem_append.mp member with early | late
    · exact first.host event early
    · exact second.host event late

theorem sound_map_error {t : Traced α} (f : Error → Error) (sound : t.Sound p) :
    (t.mapError f).Sound p := by
  refine ⟨?_, sound.host⟩
  intro a ok
  apply sound.value a
  rw [Traced.mapError] at ok
  cases outcome : t.outcome with
  | error e =>
    rw [outcome] at ok
    cases ok
  | ok b =>
    rw [outcome] at ok
    exact ok

end

theorem verify_sound (f : Function) {args : List Value} (range : ∀ v ∈ args, v.InRange) :
    (f.verify args).Sound fun _ => True := by
  rw [Function.verify]
  cases f.verifier with
  | none => exact sound_pure trivial
  | some verifier =>
    refine ⟨fun _ _ => trivial, ?_⟩
    intro event member
    cases List.mem_singleton.mp member
    exact range

theorem call_sound (f : Function) {args : List Value} (range : ∀ v ∈ args, v.InRange) :
    (f.call args).Sound fun _ => True := by
  rw [Function.call]
  apply sound_bind (p := fun _ => True) (sound_of_except fun _ _ => trivial)
  intro _ _
  apply sound_bind (p := fun _ => True) (sound_of_except fun _ _ => trivial)
  intro _ _
  apply sound_bind (verify_sound f range)
  intro _ _
  refine ⟨fun _ _ => trivial, ?_⟩
  intro event member
  cases List.mem_singleton.mp member
  exact range

namespace Expr

def LiteralsInRange (ts : List Terminal) : Prop := ∀ d, .number d ∈ ts → d.inRange = some true

theorem literals_below {e child : Expr} (literals : LiteralsInRange e.terminals)
    (below : child ∈ e.children) : LiteralsInRange child.terminals :=
  fun d member => literals d (child_terminals below member)

mutual

theorem eval_sound {env : Environment} (range : env.InRange) (e : Expr)
    (literals : LiteralsInRange e.terminals) : (e.eval env).Sound Value.InRange := by
  match e with
  | literal value span =>
    rw [eval]
    apply sound_pure
    rintro d rfl
    exact literals d List.mem_cons_self
  | name n span =>
    rw [eval]
    exact sound_of_except fun v found => Environment.looked_up_in_range range found
  | group inner span =>
    rw [eval]
    exact eval_sound range inner (literals_below literals (by simp [children]))
  | unary operator operand span =>
    have inner := eval_sound range operand (literals_below literals (by simp [children]))
    rw [eval]
    apply sound_bind inner
    intro value inside
    exact sound_of_except fun v ok => unary_in_range inside ok
  | binary operator left right span =>
    have first := eval_sound range left (literals_below literals (by simp [children]))
    have second := eval_sound range right (literals_below literals (by simp [children]))
    rw [eval]
    apply sound_bind first
    intro l _
    apply sound_bind second
    intro r _
    exact sound_of_except fun v ok => binary_in_range ok
  | logical operator left right span =>
    have first := eval_sound range left (literals_below literals (by simp [children]))
    have second := eval_sound range right (literals_below literals (by simp [children]))
    have decided : (right.eval env >>= fun r => pure (.boolean r.isTruthy)).Sound Value.InRange :=
      sound_bind second fun r _ => sound_pure (boolean_in_range r.isTruthy)
    rw [eval]
    apply sound_bind first
    intro l _
    cases operator <;> cases l.isTruthy
    · exact sound_pure (boolean_in_range false)
    · exact decided
    · exact decided
    · exact sound_pure (boolean_in_range true)
  | ternary condition whenTrue whenFalse span =>
    have first := eval_sound range condition (literals_below literals (by simp [children]))
    have second := eval_sound range whenTrue (literals_below literals (by simp [children]))
    have third := eval_sound range whenFalse (literals_below literals (by simp [children]))
    rw [eval]
    apply sound_bind first
    intro c _
    by_cases truth : c.isTruthy = true
    · rw [if_pos truth]
      exact second
    · rw [if_neg truth]
      exact third
  | call n args span =>
    have listed := eval_all_sound range args fun e below => literals_below literals below
    rw [eval]
    apply sound_bind (p := fun _ => True) (sound_of_except fun _ _ => trivial)
    intro f _
    apply sound_bind listed
    intro values inside
    apply sound_bind (sound_map_error _ (call_sound f inside))
    intro result _
    exact sound_of_except fun v ok => call_result_in_range ok

theorem eval_all_sound {env : Environment} (range : env.InRange) (es : List Expr)
    (literals : ∀ e ∈ es, LiteralsInRange e.terminals) :
    (evalAll env es).Sound fun values => ∀ v ∈ values, v.InRange := by
  match es with
  | [] =>
    rw [evalAll]
    exact sound_pure nofun
  | e :: es =>
    have first := eval_sound range e (literals e List.mem_cons_self)
    have later := eval_all_sound range es fun e below => literals e (List.mem_cons_of_mem _ below)
    rw [evalAll]
    apply sound_bind first
    intro value inside
    apply sound_bind later
    intro values rest
    apply sound_pure
    intro v member
    rcases List.mem_cons.mp member with rfl | member
    · exact inside
    · exact rest v member

end

end Expr

theorem parsed_in_range {source : String} {e : Expr} (parsed : parse source = .ok e) :
    Expr.LiteralsInRange e.terminals := by
  obtain ⟨eof, ending, p, tokens, rfl⟩ := (Parser.complete_ok_iff _ e).mp parsed
  intro d member
  rw [Grammar.phrase_terminals, tokens] at member
  obtain ⟨t, lexed, number⟩ := List.mem_map.mp member
  exact Lexer.lexed_in_range lexed number

/-- Whatever part of a formula is evaluated, a number that it gives is in range, and so is every
number that is handed to a function of the host on the way. -/
theorem numbers_in_range {source : String} {e n : Expr} {env : Environment}
    (parsed : parse source = .ok e) (built : env.Built) (node : n ∈ e.nodes) :
    (∀ d, (n.eval env).outcome = .ok (.number d) → d.inRange = some true) ∧
      ∀ event ∈ (n.eval env).events, ∀ d, .number d ∈ event.args → d.inRange = some true := by
  have literals := parsed_in_range parsed
  have sound := Expr.eval_sound (Environment.built_in_range built) n fun d member =>
    literals d (Expr.node_terminals e node member)
  constructor
  · intro d evaluated
    exact sound.value _ evaluated d rfl
  · intro event happened d given
    exact sound.host event happened _ given d rfl

theorem numbers_in_range_of_call :
    ∃ e, parse "-1 ^ 3 * max(2.50, 0.5)" = .ok e ∧ Catalogue.environment.Built ∧ e ∈ e.nodes ∧
      (e.eval Catalogue.environment).outcome = .ok (.number ⟨-250, 2⟩) ∧
      (e.eval Catalogue.environment).events =
        [.invoked "max" [.number ⟨250, 2⟩, .number ⟨5, 1⟩]] ∧
      (⟨-250, 2⟩ : Decimal).inRange = some true ∧ (⟨5, 1⟩ : Decimal).inRange = some true := by
  have outcome : (evaluateTraced "-1 ^ 3 * max(2.50, 0.5)" Catalogue.environment).outcome =
      .ok (.number ⟨-250, 2⟩) := by decide +kernel
  have events : (evaluateTraced "-1 ^ 3 * max(2.50, 0.5)" Catalogue.environment).events =
      [.invoked "max" [.number ⟨250, 2⟩, .number ⟨5, 1⟩]] := by decide +kernel
  rw [evaluateTraced] at outcome events
  cases parsed : parse "-1 ^ 3 * max(2.50, 0.5)" with
  | error e =>
    rw [parsed] at outcome
    cases outcome
  | ok e =>
    rw [parsed] at outcome events
    have built : Catalogue.environment.Built := .install .empty
    have node : e ∈ e.nodes := by cases e <;> exact List.mem_cons_self
    obtain ⟨result, given⟩ := numbers_in_range parsed built node
    refine ⟨e, rfl, built, node, outcome, events, result _ outcome, ?_⟩
    exact given _ (events ▸ List.mem_cons_self) _ (List.mem_cons_of_mem _ List.mem_cons_self)

end Formula
