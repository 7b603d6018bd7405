import Formula.Decimal.Float
import Formula.Decimal.Power
import Formula.Decimal.Root
import Formula.Environment

set_option autoImplicit false

namespace Formula.Catalogue

def pi : Decimal :=
  ⟨31415926535897932384626433832795028841971693993751058209749445923, 64⟩

def e : Decimal :=
  ⟨271828182845904523536028747135266249775724709369995957496696762772, 65⟩

def maxPlaces : Int := 1000

-- What a default function is computed in: it fails, reads arguments, and takes one length from
-- another.
class Computation (m : Type → Type) extends Monad m where
  ofResult {α : Type} : Result α → m α
  arg? : List Value → Nat → m (Option Value)
  minus : Nat → Nat → m Nat

instance : Computation Result where
  ofResult result := result
  arg? args index := .ok args[index]?
  minus n k := if k ≤ n then .ok (n - k) else .error .panicked

structure Native (m : Type → Type) where
  name : String
  arity : Arity
  params : List Kind
  returns : Kind
  compute : List Value → m Value
  verifier : Option (List Value → m Unit)

def Native.function (n : Native Result) : Function :=
  ⟨n.name, n.arity, n.params, n.returns, n.compute, n.verifier⟩

section

open Catalogue.Computation

variable {m : Type → Type} [Computation m]

def invalid {α : Type} (name message : String) : m α :=
  ofResult (.error (.of (.invalidArgument name message)))

def numberArg (name : String) (args : List Value) (index : Nat) : m Decimal := do
  match (← arg? args index).bind Value.number? with
  | some d => pure d
  | none => invalid name ("argument " ++ toString (index + 1) ++ " must be a number")

def textArg (name : String) (args : List Value) (index : Nat) : m String := do
  match (← arg? args index).bind Value.text? with
  | some s => pure s
  | none => invalid name ("argument " ++ toString (index + 1) ++ " must be a string")

def fixed (name : String) (params : List Kind) (returns : Kind)
    (compute : List Value → m Value) : Native m :=
  ⟨name, .exact params.length, params, returns, compute, none⟩

def atLeast (least : Nat) (name : String) (element : Kind) (returns : Kind)
    (compute : List Value → m Value) : Native m :=
  ⟨name, .variadic least none, [element], returns, compute, none⟩

def verifiedBy (verifier : List Value → m Unit) (n : Native m) : Native m :=
  { n with verifier := some verifier }

def ofNumber (name : String) (f : Decimal → Result Decimal) : Native m :=
  fixed name [.number] .number fun args => do
    let d ← numberArg name args 0
    let result ← ofResult (f d)
    pure (.number result)

-- The argument for which no other one is better; of equals, the first.
def extremum (name : String) (better : Decimal → Decimal → Bool) : Native m :=
  atLeast 1 name .number .number fun args => do
    let first ← numberArg name args 0
    let rest ← (List.range (args.length - 1)).mapM fun index => numberArg name args (index + 1)
    pure (.number (rest.foldl (fun best d => if better d best then d else best) first))

def throughFloat (name : String) (f : Float → Float) : Native m :=
  ofNumber name fun d =>
    match Decimal.ofFloat? (f d.toFloat) with
    | some result => .ok result
    | none => do
      let text ← d.write
      .error (.of (.domainError name (name ++ "(" ++ text ++ ") has no finite result")))

def positive (name : String) (args : List Value) : m Unit := do
  let d ← numberArg name args 0
  if d.isPositive then pure () else invalid name "argument must be positive"

def sign (d : Decimal) : Decimal := .ofInt d.unscaled.sign

def roundPlaces (args : List Value) : m Int := do
  let places ← numberArg "round" args 1
  match places.toWord?.filter fun n => decide (0 ≤ n) && decide (n ≤ maxPlaces) with
  | some n => pure n
  | none => do
    let text ← ofResult places.write
    invalid "round"
      ("decimal places must be an integer between 0 and " ++ toString maxPlaces ++ ", got " ++
        text)

def charIndex (args : List Value) (index : Nat) (what : String) : m Nat := do
  let d ← numberArg "slice" args index
  match d.toInt?.filter fun n => decide (0 ≤ n) && decide (n < (twoPow 64 : Int)) with
  | some n => pure n.toNat
  | none => do
    let text ← ofResult d.write
    invalid "slice" (what ++ " must be a non-negative integer, got " ++ text)

def sliceBounds (args : List Value) : m (Nat × Nat) := do
  let text ← textArg "slice" args 0
  let start ← charIndex args 1 "start"
  let stop ← charIndex args 2 "end"
  if stop < start then
    invalid "slice" ("start " ++ toString start ++ " is after end " ++ toString stop)
  else if text.length < stop then
    invalid "slice"
      ("end " ++ toString stop ++ " is past the string length " ++ toString text.length)
  else pure (start, stop)

end

def occursIn (part : List Char) : List Char → Bool
  | [] => part.isEmpty
  | c :: cs => part.isPrefixOf (c :: cs) || occursIn part cs

def replaceFirst (old new : List Char) : List Char → List Char
  | [] => if old.isEmpty then new else []
  | c :: cs =>
    if old.isPrefixOf (c :: cs) then new ++ (c :: cs).drop old.length
    else c :: replaceFirst old new cs

def replaceEach (old new : List Char) : Nat → List Char → List Char
  | _, [] => []
  | skip + 1, _ :: cs => replaceEach old new skip cs
  | 0, c :: cs =>
    if old.isPrefixOf (c :: cs) then new ++ replaceEach old new (old.length - 1) cs
    else c :: replaceEach old new 0 cs

def replaceAll (old new text : List Char) : List Char :=
  if old.isEmpty then new ++ text.flatMap fun c => c :: new else replaceEach old new 0 text

section

open Catalogue.Computation

variable {m : Type → Type} [Computation m]

def replacement (name : String) (f : List Char → List Char → List Char → List Char) : Native m :=
  fixed name [.string, .string, .string] .string fun args => do
    let text ← textArg name args 0
    let old ← textArg name args 1
    let new ← textArg name args 2
    pure (.text (String.ofList (f old.toList new.toList text.toList)))

variable (m)

def natives : List (Native m) :=
  [ofNumber "abs" fun d => .ok d.abs,
    ofNumber "ceil" fun d => .ok (d.rescale 0 .ceiling),
    ofNumber "floor" fun d => .ok (d.rescale 0 .floor),
    ofNumber "sign" fun d => .ok (sign d),
    fixed "pow" [.number, .number] .number fun args => do
      let base ← numberArg "pow" args 0
      let exponent ← numberArg "pow" args 1
      let result ← ofResult (base.power exponent)
      pure (.number result),
    verifiedBy (fun args => do let _ ← roundPlaces args) <|
      fixed "round" [.number, .number] .number fun args => do
        let d ← numberArg "round" args 0
        let places ← roundPlaces args
        pure (.number (d.rescale places .halfAwayFromZero).normalized),
    extremum "max" fun candidate best => best.less candidate,
    extremum "min" fun candidate best => candidate.less best,
    verifiedBy
      (fun args => do
        let d ← numberArg "sqrt" args 0
        if d.isNegative then invalid "sqrt" "square root of a negative number" else pure ()) <|
      ofNumber "sqrt" fun d => d.nthRoot 2,
    ofNumber "cbrt" fun d => d.nthRoot 3,
    throughFloat "exp" Float.exp,
    verifiedBy (positive "ln") (throughFloat "ln" Float.log),
    verifiedBy (positive "log2") (throughFloat "log2" Float.log2),
    verifiedBy (positive "log10") (throughFloat "log10" Float.log10),
    fixed "toNumber" [.string] .number fun args => do
      let text ← textArg "toNumber" args 0
      match Decimal.ofText? text with
      | some d => pure (.number d)
      | none => invalid "toNumber" ("'" ++ text ++ "' is not a number"),
    atLeast 1 "concat" .any .string fun args => do
      let parts ← ofResult (args.mapM Value.write)
      pure (.text (String.join parts)),
    fixed "contains" [.string, .string] .boolean fun args => do
      let text ← textArg "contains" args 0
      let part ← textArg "contains" args 1
      pure (.boolean (occursIn part.toList text.toList)),
    atLeast 2 "join" .string .string fun args => do
      let separator ← textArg "join" args 0
      let parts ← ofResult (args.tail.mapM Value.write)
      pure (.text (String.intercalate separator parts)),
    fixed "length" [.string] .number fun args => do
      let text ← textArg "length" args 0
      pure (.number (.ofInt text.length)),
    replacement "replace" replaceFirst,
    replacement "replaceAll" replaceAll,
    verifiedBy (fun args => do let _ ← sliceBounds args) <|
      fixed "slice" [.string, .number, .number] .string fun args => do
        let text ← textArg "slice" args 0
        let (start, stop) ← sliceBounds args
        let size ← minus stop start
        pure (.text (String.ofList ((text.toList.drop start).take size)))]

end

def functions : List Function := (natives Result).map Native.function

def defaults : List (String × Symbol) :=
  functions.map (fun f => (f.name, .function f)) ++
    [("PI", .value (.number pi)), ("E", .value (.number e))]

def declareDefault (env : Environment) (entry : String × Symbol) : Result Environment :=
  match entry.2 with
  | .value v => env.declareVariable entry.1 v
  | .function f => env.declareFunction f

def install (env : Environment) : Environment × Result Unit :=
  Environment.declareEach declareDefault env defaults

def environment : Environment := (install .empty).1

end Formula.Catalogue
