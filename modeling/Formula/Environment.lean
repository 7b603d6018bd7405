import Formula.Decimal.Range
import Formula.Function
import Formula.Text.Order

set_option autoImplicit false

namespace Formula

inductive Symbol where
  | value (value : Value)
  | function (function : Function)

structure Environment where
  symbols : List (String × Symbol)
  ordered : symbols.Pairwise fun a b => Text.before a.1 b.1 = true

namespace Environment

def empty : Environment := ⟨[], .nil⟩

def insertAt (name : String) (symbol : Symbol) : List (String × Symbol) → List (String × Symbol)
  | [] => [(name, symbol)]
  | entry :: rest =>
    if Text.before name entry.1 then (name, symbol) :: entry :: rest
    else entry :: insertAt name symbol rest

theorem mem_insert_at {name : String} {symbol : Symbol} {entry : String × Symbol}
    {symbols : List (String × Symbol)} :
    entry ∈ insertAt name symbol symbols ↔ entry = (name, symbol) ∨ entry ∈ symbols := by
  induction symbols with
  | nil => simp [insertAt]
  | cons head rest ih =>
    unfold insertAt
    split
    · simp
    · simp only [List.mem_cons, ih]
      constructor <;> rintro (h | h | h) <;> simp [h]

theorem insert_at_ordered (name : String) (symbol : Symbol) (symbols : List (String × Symbol))
    (ordered : symbols.Pairwise fun a b => Text.before a.1 b.1 = true)
    (fresh : ∀ entry ∈ symbols, entry.1 ≠ name) :
    (insertAt name symbol symbols).Pairwise fun a b => Text.before a.1 b.1 = true := by
  induction symbols with
  | nil => simp [insertAt]
  | cons head rest ih =>
    obtain ⟨above, ordered⟩ := List.pairwise_cons.mp ordered
    unfold insertAt
    split
    · rename_i front
      refine List.pairwise_cons.mpr ⟨?_, List.pairwise_cons.mpr ⟨above, ordered⟩⟩
      intro entry member
      rcases List.mem_cons.mp member with rfl | later
      · exact front
      · exact Text.chars_before_trans _ _ _ front (above entry later)
    · rename_i behind
      refine List.pairwise_cons.mpr
        ⟨?_, ih ordered fun entry member => fresh entry (List.mem_cons_of_mem _ member)⟩
      intro entry member
      rcases mem_insert_at.mp member with rfl | old
      · refine Text.before_or_before _ _ ?_ (Bool.eq_false_iff.mpr behind)
        intro same
        exact fresh head List.mem_cons_self (String.toList_inj.mp same.symm)
      · exact above entry old

def get? (env : Environment) (name : String) : Option Symbol :=
  (env.symbols.find? fun entry => entry.1 == name).map Prod.snd

def isDeclared (env : Environment) (name : String) : Bool := (env.get? name).isSome

def valueOf? (env : Environment) (name : String) : Option Value :=
  match env.get? name with
  | some (.value v) => some v
  | _ => none

def functionOf? (env : Environment) (name : String) : Option Function :=
  match env.get? name with
  | some (.function f) => some f
  | _ => none

theorem fresh_of_get? {env : Environment} {name : String} (missing : env.get? name = none) :
    ∀ entry ∈ env.symbols, entry.1 ≠ name := by
  intro entry member same
  simp only [get?, Option.map_eq_none_iff, List.find?_eq_none] at missing
  exact missing entry member (by simp [same])

def declare (env : Environment) (name : String) (symbol : Symbol) : Result Environment :=
  match missing : env.get? name with
  | some _ => .error (.of (.alreadyDeclared name))
  | none =>
    .ok ⟨insertAt name symbol env.symbols,
      insert_at_ordered name symbol env.symbols env.ordered (fresh_of_get? missing)⟩

def declareVariable (env : Environment) (name : String) (value : Value) :
    Result Environment :=
  match value with
  | .number d =>
    d.byRange (env.declare name (.value value)) (.error (.of (.numberOutOfRange name)))
  | _ => env.declare name (.value value)

def declareFunction (env : Environment) (f : Function) : Result Environment :=
  env.declare f.name (.function f)

def declareEach {α : Type} (declareOne : Environment → α → Result Environment) :
    Environment → List α → Environment × Result Unit
  | env, [] => (env, .ok ())
  | env, item :: items =>
    match declareOne env item with
    | .ok env => declareEach declareOne env items
    | .error e => (env, .error e)

def allVariables (env : Environment) : List (String × Value) :=
  env.symbols.filterMap fun
    | (name, .value v) => some (name, v)
    | _ => none

def allFunctions (env : Environment) : List Function :=
  env.symbols.filterMap fun
    | (_, .function f) => some f
    | _ => none

end Environment

end Formula
