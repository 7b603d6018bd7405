import Formula.Catalogue
import Formula.Console
import Formula.Json
import Formula.Proofs.ParserGrammar

set_option autoImplicit false

namespace Formula.Environment

theorem find_insert_at {name : String} {symbol : Symbol} {symbols : List (String × Symbol)}
    (fresh : ∀ entry ∈ symbols, entry.1 ≠ name) (n : String) :
    (insertAt name symbol symbols).find? (fun entry => entry.1 == n) =
      if n = name then some (name, symbol) else symbols.find? fun entry => entry.1 == n := by
  induction symbols with
  | nil =>
    by_cases same : n = name
    · simp [insertAt, same]
    · simp [insertAt, same, Ne.symm same]
  | cons head rest ih =>
    have later := ih fun entry member => fresh entry (List.mem_cons_of_mem _ member)
    have other : head.1 ≠ name := fresh head List.mem_cons_self
    unfold insertAt
    split
    · by_cases same : n = name
      · simp [same]
      · simp [same, Ne.symm same]
    · rw [List.find?_cons, later, List.find?_cons]
      by_cases same : n = name
      · rw [same, beq_false_of_ne other, if_pos rfl]
      · simp [same]

theorem declared_fresh {env next : Environment} {name : String} {symbol : Symbol}
    (declared : env.declare name symbol = .ok next) : env.get? name = none := by
  unfold declare at declared
  split at declared
  · cases declared
  · assumption

theorem get_declared {env next : Environment} {name : String} {symbol : Symbol}
    (declared : env.declare name symbol = .ok next) (n : String) :
    next.get? n = if n = name then some symbol else env.get? n := by
  have fresh := fresh_of_get? (declared_fresh declared)
  unfold declare at declared
  split at declared
  · cases declared
  · cases declared
    rw [get?, find_insert_at fresh]
    by_cases same : n = name
    · rw [if_pos same, if_pos same]
      rfl
    · rw [if_neg same, if_neg same]
      rfl

theorem declare_of_fresh {env : Environment} {name : String} (fresh : env.get? name = none)
    (symbol : Symbol) : ∃ next, env.declare name symbol = .ok next := by
  unfold declare
  split
  · rename_i bound
    rw [fresh] at bound
    cases bound
  · exact ⟨_, rfl⟩

theorem declare_of_bound {env : Environment} {name : String} {bound : Symbol}
    (taken : env.get? name = some bound) (symbol : Symbol) :
    env.declare name symbol = .error (.of (.alreadyDeclared name)) := by
  unfold declare
  split
  · rfl
  · rename_i free
    rw [taken] at free
    cases free

theorem variable_declared {env next : Environment} {name : String} {value : Value}
    (declared : env.declareVariable name value = .ok next) :
    env.declare name (.value value) = .ok next := by
  cases value with
  | text | boolean => exact declared
  | number d =>
    rw [declareVariable, Decimal.byRange] at declared
    split at declared
    · exact declared
    · cases declared
    · cases declared

theorem declare_ok_iff (env : Environment) (name : String) (symbol : Symbol) :
    (∃ next, env.declare name symbol = .ok next) ↔ env.get? name = none :=
  ⟨fun ⟨_, declared⟩ => declared_fresh declared, fun fresh => declare_of_fresh fresh symbol⟩

theorem declare_variable_ok_iff (env : Environment) (name : String) (value : Value) :
    (∃ next, env.declareVariable name value = .ok next) ↔
      env.get? name = none ∧ ∀ d, value = .number d → d.inRange = some true := by
  cases value with
  | number d =>
    rw [← declare_ok_iff env name (.value (.number d)), declareVariable, Decimal.byRange]
    rcases range : d.inRange with _ | _ | _ <;> simp [range]
  | text | boolean => simp [declareVariable, declare_ok_iff]

theorem declare_function_ok_iff (env : Environment) (f : Function) :
    (∃ next, env.declareFunction f = .ok next) ↔ env.get? f.name = none :=
  declare_ok_iff env f.name (.function f)

inductive Declares (env next : Environment) : Prop where
  | value {name : String} {value : Value} (declared : env.declareVariable name value = .ok next)
  | function {f : Function} (declared : env.declareFunction f = .ok next)

theorem entry_declares {env next : Environment} {entry : String × Json}
    (declared : Json.declareEntry env entry = .ok next) : Declares env next := by
  rw [Json.declareEntry] at declared
  obtain ⟨value, -, declared⟩ := bind_ok declared
  exact .value declared

theorem default_declares {env next : Environment} {entry : String × Symbol}
    (declared : Catalogue.declareDefault env entry = .ok next) : Declares env next := by
  rw [Catalogue.declareDefault] at declared
  cases symbol : entry.2 with
  | value v =>
    rw [symbol] at declared
    exact .value declared
  | function f =>
    rw [symbol] at declared
    exact .function declared

theorem console_declares {env next : Environment} {name source : String}
    (declared : (Console.declare env name source).map Prod.fst = .ok next) :
    Declares env next := by
  cases made : Console.declare env name source with
  | error e =>
    rw [made] at declared
    cases declared
  | ok result =>
    rw [made] at declared
    cases declared
    rw [Console.declare] at made
    obtain ⟨value, -, further⟩ := bind_ok made
    obtain ⟨_, declared, last⟩ := bind_ok further
    cases last
    exact .value declared

inductive Step where
  | declareVariable (name : String) (value : Value)
  | declareFunction (f : Function)
  | declareJson (entries : List (String × Json))
  | install
  | declareValue (name source : String)

def orElse (env : Environment) (declared : Result Environment) :
    Environment × Result Unit :=
  match declared with
  | .ok next => (next, .ok ())
  | .error e => (env, .error e)

def Step.run (env : Environment) : Step → Environment × Result Unit
  | declareVariable name value => env.orElse (env.declareVariable name value)
  | declareFunction f => env.orElse (env.declareFunction f)
  | declareJson entries => env.declareJson entries
  | install => Catalogue.install env
  | declareValue name source => env.orElse ((Console.declare env name source).map Prod.fst)

def session (env : Environment) (steps : List Step) : Environment :=
  steps.foldl (fun env step => (step.run env).1) env

theorem declare_each_keeps {α : Type} {declareOne : Environment → α → Result Environment}
    {keeps : Environment → Prop} (items : List α)
    (one : ∀ env, ∀ item ∈ items, ∀ next, keeps env → declareOne env item = .ok next → keeps next)
    {env : Environment} (start : keeps env) : keeps (declareEach declareOne env items).1 := by
  induction items generalizing env with
  | nil => exact start
  | cons item items ih =>
    rw [declareEach]
    cases declared : declareOne env item with
    | error e => exact start
    | ok next =>
      exact ih (fun env item member => one env item (List.mem_cons_of_mem _ member))
        (one env item List.mem_cons_self next start declared)

section

variable {keeps : Environment → Prop}
    (one : ∀ env next, keeps env → Declares env next → keeps next)

include one

theorem or_else_keeps {env : Environment} {declared : Result Environment} (start : keeps env)
    (declares : ∀ next, declared = .ok next → Declares env next) :
    keeps (env.orElse declared).1 := by
  cases declared with
  | ok next => exact one env next start (declares next rfl)
  | error e => exact start

theorem declare_json_keeps {env : Environment} (start : keeps env)
    (entries : List (String × Json)) : keeps (env.declareJson entries).1 :=
  declare_each_keeps _ (fun env _ _ next before made => one env next before (entry_declares made))
    start

theorem install_keeps {env : Environment} (start : keeps env) : keeps (Catalogue.install env).1 :=
  declare_each_keeps _ (fun env _ _ next before made => one env next before (default_declares made))
    start

theorem step_keeps {env : Environment} (start : keeps env) (step : Step) :
    keeps (step.run env).1 := by
  cases step with
  | declareVariable name value => exact or_else_keeps one start fun _ made => .value made
  | declareFunction f => exact or_else_keeps one start fun _ made => .function made
  | declareJson entries => exact declare_json_keeps one start entries
  | install => exact install_keeps one start
  | declareValue name source => exact or_else_keeps one start fun _ made => console_declares made

theorem session_keeps {env : Environment} (start : keeps env) (steps : List Step) :
    keeps (session env steps) := by
  induction steps generalizing env with
  | nil => exact start
  | cons step steps ih => exact ih (step_keeps one start step)

end

def Extends (env next : Environment) : Prop :=
  ∀ name symbol, env.get? name = some symbol → next.get? name = some symbol

theorem extends_refl (env : Environment) : Extends env env := fun _ _ bound => bound

theorem extends_trans {a b c : Environment} (first : Extends a b) (second : Extends b c) :
    Extends a c :=
  fun name symbol bound => second name symbol (first name symbol bound)

theorem declare_extends {env next : Environment} {name : String} {symbol : Symbol}
    (declared : env.declare name symbol = .ok next) : Extends env next := by
  intro n symbol' bound
  rw [get_declared declared]
  by_cases same : n = name
  · rw [same, declared_fresh declared] at bound
    cases bound
  · rw [if_neg same]
    exact bound

theorem declares_extends {env next : Environment} (declares : Declares env next) :
    Extends env next := by
  cases declares with
  | value declared => exact declare_extends (variable_declared declared)
  | function declared => exact declare_extends declared

theorem session_extends (env : Environment) (steps : List Step) :
    Extends env (session env steps) := by
  apply session_keeps _ (extends_refl env)
  intro before next reached declares
  exact extends_trans reached (declares_extends declares)

end Formula.Environment
