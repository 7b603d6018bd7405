import Formula.Arity
import Formula.Error
import Formula.Value

set_option autoImplicit false

namespace Formula

inductive Event where
  | verified (name : String) (args : List Value)
  | invoked (name : String) (args : List Value)
deriving DecidableEq, Repr

structure Traced (α : Type) where
  outcome : Result α
  events : List Event

namespace Traced

variable {α β : Type}

def ofExcept (outcome : Result α) : Traced α := ⟨outcome, []⟩

def andThen (first : Traced α) (next : α → Traced β) : Traced β :=
  match first.outcome with
  | .ok a => ⟨(next a).outcome, first.events ++ (next a).events⟩
  | .error e => ⟨.error e, first.events⟩

instance : Monad Traced where
  pure a := ⟨.ok a, []⟩
  bind := andThen

def mapError (f : Error → Error) (t : Traced α) : Traced α :=
  ⟨t.outcome.mapError (Stop.map f), t.events⟩

end Traced

-- A function of the host. A variadic function has one kind, for all of its arguments.
structure Function where
  name : String
  arity : Arity
  params : List Kind
  returns : Kind
  compute : List Value → Result Value
  verifier : Option (List Value → Result Unit)

namespace Function

def signature (f : Function) : String :=
  let params :=
    if f.arity.isVariadic then (f.params.head?.getD .any).name ++ "..."
    else String.intercalate ", " (f.params.map Kind.name)
  f.name ++ "(" ++ params ++ ") -> " ++ f.returns.name

def paramAt? (f : Function) (index : Nat) : Option Kind :=
  if f.arity.isVariadic then f.params.head? else f.params[index]?

def checkArity (f : Function) (args : List Value) : Result Unit :=
  if f.arity.accepts args.length then .ok ()
  else .error (.of (.arityMismatch f.name f.arity args.length))

def checkTypesFrom (f : Function) : Nat → List Value → Result Unit
  | _, [] => .ok ()
  | index, arg :: args =>
    match f.paramAt? index with
    | none => f.checkTypesFrom (index + 1) args
    | some expected =>
      if expected.accepts arg then f.checkTypesFrom (index + 1) args
      else .error (.of (.typeMismatch f.name (index + 1) expected arg.kind))

def checkTypes (f : Function) (args : List Value) : Result Unit := f.checkTypesFrom 0 args

def verify (f : Function) (args : List Value) : Traced Unit :=
  match f.verifier with
  | none => pure ()
  | some verifier => ⟨verifier args, [.verified f.name args]⟩

def invoke (f : Function) (args : List Value) : Traced Value :=
  ⟨f.compute args, [.invoked f.name args]⟩

def call (f : Function) (args : List Value) : Traced Value := do
  .ofExcept (f.checkArity args)
  .ofExcept (f.checkTypes args)
  f.verify args
  f.invoke args

end Function

end Formula
