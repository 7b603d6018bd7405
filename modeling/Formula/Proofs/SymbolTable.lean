import Formula.Proofs.ByteOrder
import Formula.Proofs.NumbersInRange
import Mathlib.Data.List.Nodup

set_option autoImplicit false

namespace Formula.Environment

abbrev Binding := String × Symbol

def recordOf (declared : Result Environment) (binding : Binding) : List Binding :=
  match declared with
  | .ok _ => [binding]
  | .error _ => []

def made {α : Type} (declareOne : Environment → α → Result Environment) :
    Environment → List α → List α
  | _, [] => []
  | env, item :: items =>
    match declareOne env item with
    | .ok next => item :: made declareOne next items
    | .error _ => []

def jsonBinding (entry : String × Json) : Option Binding :=
  (Json.toValue entry.1 entry.2).toOption.map fun value => (entry.1, .value value)

def defaultBinding (entry : String × Symbol) : Binding :=
  match entry.2 with
  | .value v => (entry.1, .value v)
  | .function f => (f.name, .function f)

-- The declarations of a step that are accepted, in their order.
def Step.accepted (env : Environment) : Step → List Binding
  | declareVariable name value => recordOf (env.declareVariable name value) (name, .value value)
  | declareFunction f => recordOf (env.declareFunction f) (f.name, .function f)
  | declareJson entries =>
    (made Json.declareEntry env (Json.ordered entries)).filterMap jsonBinding
  | install => (made Catalogue.declareDefault env Catalogue.defaults).map defaultBinding
  | declareValue name source =>
    match Console.declare env name source with
    | .ok (_, value) => [(name, .value value)]
    | .error _ => []

def accepted (env : Environment) : List Step → List Binding
  | [] => []
  | step :: steps => step.accepted env ++ accepted (step.run env).1 steps

structure Binds (env next : Environment) (binding : Binding) : Prop where
  fresh : env.get? binding.1 = none
  get : ∀ name, next.get? name = if name = binding.1 then some binding.2 else env.get? name

theorem declare_binds {env next : Environment} {name : String} {symbol : Symbol}
    (declared : env.declare name symbol = .ok next) : Binds env next (name, symbol) :=
  ⟨declared_fresh declared, get_declared declared⟩

theorem default_binds {env next : Environment} {entry : String × Symbol}
    (declared : Catalogue.declareDefault env entry = .ok next) :
    Binds env next (defaultBinding entry) := by
  rw [Catalogue.declareDefault] at declared
  rw [defaultBinding]
  cases symbol : entry.2 with
  | value v =>
    rw [symbol] at declared
    exact declare_binds (variable_declared declared)
  | function f =>
    rw [symbol] at declared
    exact declare_binds declared

theorem names_ascending (env : Environment) :
    env.symbols.Pairwise fun a b => Text.bytes a.1 < Text.bytes b.1 :=
  env.ordered.imp (Text.before_iff_bytes _ _).mp

theorem nodup_of_ascending {α : Type} {key : α → String} {items : List α}
    (ascending : items.Pairwise fun a b => Text.bytes (key a) < Text.bytes (key b)) :
    (items.map key).Nodup := by
  refine List.pairwise_map.mpr (ascending.imp ?_)
  intro a b less same
  rw [same] at less
  exact List.lt_irrefl _ less

theorem names_nodup (env : Environment) : (env.symbols.map Prod.fst).Nodup :=
  nodup_of_ascending (names_ascending env)

theorem mem_symbols_iff (env : Environment) (name : String) (symbol : Symbol) :
    (name, symbol) ∈ env.symbols ↔ env.get? name = some symbol := by
  have named (entry : Binding)
      (found : env.symbols.find? (fun entry => entry.1 == name) = some entry) :
      entry.1 = name := by
    have test := List.find?_some found
    exact eq_of_beq test
  rw [get?, Option.map_eq_some_iff]
  constructor
  · intro member
    cases found : env.symbols.find? fun entry => entry.1 == name with
    | none =>
      have missing := List.find?_eq_none.mp found _ member
      exact absurd (beq_self_eq_true name) missing
    | some entry =>
      have only : entry = (name, symbol) :=
        List.inj_on_of_nodup_map (names_nodup env) (List.mem_of_find?_eq_some found) member
          (named entry found)
      exact ⟨entry, rfl, by rw [only]⟩
  · intro lookup
    obtain ⟨entry, found, bound⟩ := lookup
    rw [← named entry found, ← bound]
    exact List.mem_of_find?_eq_some found

theorem mem_all_variables_iff (env : Environment) (name : String) (v : Value) :
    (name, v) ∈ env.allVariables ↔ env.get? name = some (.value v) := by
  rw [← mem_symbols_iff, allVariables, List.mem_filterMap]
  constructor
  · intro ⟨⟨n, symbol⟩, member, shown⟩
    cases symbol with
    | value v' =>
      cases shown
      exact member
    | function f => cases shown
  · intro member
    exact ⟨_, member, rfl⟩

def Step.Single : Step → Prop
  | declareVariable .. => True
  | declareFunction .. => True
  | declareValue .. => True
  | declareJson .. => False
  | install => False

end Formula.Environment
