import Formula.Decimal.Power
import Formula.Environment
import Formula.Expr.Parser

set_option autoImplicit false

namespace Formula

def atNode {α : Type} (span : Span) (result : Result α) : Result α :=
  result.mapError fun stop => stop.orSpan span

def checkedNumber (operator : BinaryOp) (span : Span) (result : Decimal) : Result Value :=
  atNode span ((result.ensureInRange operator.symbol).map .number)

def ordersNumbers (operator : BinaryOp) (left right : Decimal) : Bool :=
  match operator with
  | .greater => right.less left
  | .greaterEqual => right.lessOrEqual left
  | .less => left.less right
  | _ => left.lessOrEqual right

def applyBinary (operator : BinaryOp) (left right : Value) (span : Span) : Result Value :=
  let unsupported : Result Value :=
    .error (.located (.unsupportedOperation operator.symbol left.kind right.kind) span)
  match operator, left, right with
  | .add, .number l, .number r => checkedNumber operator span (l + r)
  | .add, .text l, .text r => .ok (.text (l ++ r))
  | .add, .text l, .number r => r.write.map fun s => .text (l ++ s)
  | .add, .number l, .text r => l.write.map fun s => .text (s ++ r)
  | .subtract, .number l, .number r => checkedNumber operator span (l - r)
  | .multiply, .number l, .number r => checkedNumber operator span (l * r)
  | .divide, .number l, .number r =>
    if r.isZero then .error (.located .divisionByZero span)
    else checkedNumber operator span (l / r)
  | .remainder, .number l, .number r =>
    if r.isZero then .error (.located .divisionByZero span)
    else checkedNumber operator span (l % r)
  | .power, .number l, .number r => atNode span ((l.power r).map .number)
  | .equal, .number _, .number _ | .equal, .text _, .text _ | .equal, .boolean _, .boolean _ =>
    .ok (.boolean (left.same right))
  | .notEqual, .number _, .number _ | .notEqual, .text _, .text _
  | .notEqual, .boolean _, .boolean _ => .ok (.boolean (!left.same right))
  | .less, .number l, .number r | .lessEqual, .number l, .number r
  | .greater, .number l, .number r | .greaterEqual, .number l, .number r =>
    .ok (.boolean (ordersNumbers operator l r))
  | _, _, _ => unsupported

def applyUnary (operator : UnaryOp) (operand : Value) (span : Span) : Result Value :=
  match operator, operand with
  | .not, _ => .ok (.boolean !operand.isTruthy)
  | .plus, _ => .ok operand
  | .negate, .number d => .ok (.number (-d))
  | .negate, _ => .error (.located (.unsupportedUnaryOperation operator.symbol operand.kind) span)

def lookUp (env : Environment) (name : String) (span : Span) : Result Value :=
  match env.get? name with
  | some (.value v) => .ok v
  | some (.function _) =>
    .error (.failed ((Error.located (.notAVariable name) span).withHelp
      ("'" ++ name ++ "' is a function; call it as " ++ name ++ "(...)")))
  | none => .error (.located (.unknownVariable name) span)

def lookUpFunction (env : Environment) (name : String) (span : Span) : Result Function :=
  match env.get? name with
  | some (.function f) => .ok f
  | some (.value _) => .error (.located (.notAFunction name) span)
  | none => .error (.located (.unknownFunction name) span)

-- An error of a call, at its node. Where the contract was not met, the help shows it, unless there
-- is help already.
def callError (f : Function) (span : Span) (e : Error) : Error :=
  let e :=
    match e.cause, e.help with
    | .arityMismatch _ _ _, none | .typeMismatch _ _ _ _, none =>
      e.withHelp ("signature: " ++ f.signature)
    | _, _ => e
  e.orSpan span

def callResult (name : String) (span : Span) (result : Value) : Result Value :=
  match result with
  | .number d => atNode span ((d.ensureInRange (name ++ "()")).map .number)
  | _ => .ok result

namespace Expr

mutual

def eval (env : Environment) : Expr → Traced Value
  | literal value _ => pure value
  | name n span => .ofExcept (lookUp env n span)
  | group inner _ => eval env inner
  | unary operator operand span => do
    let value ← eval env operand
    .ofExcept (applyUnary operator value span)
  | binary operator left right span => do
    let l ← eval env left
    let r ← eval env right
    .ofExcept (applyBinary operator l r span)
  | logical operator left right _ => do
    let l ← eval env left
    match operator, l.isTruthy with
    | .or, true => pure (.boolean true)
    | .and, false => pure (.boolean false)
    | _, _ => do
      let r ← eval env right
      pure (.boolean r.isTruthy)
  | ternary condition whenTrue whenFalse _ => do
    let c ← eval env condition
    if c.isTruthy then eval env whenTrue else eval env whenFalse
  | call n args span => do
    let f ← .ofExcept (lookUpFunction env n span)
    let values ← evalAll env args
    let result ← (f.call values).mapError (callError f span)
    .ofExcept (callResult n span result)

def evalAll (env : Environment) : List Expr → Traced (List Value)
  | [] => pure []
  | e :: es => do
    let value ← eval env e
    let values ← evalAll env es
    pure (value :: values)

end

end Expr

def evaluateTraced (source : String) (env : Environment) : Traced Value :=
  match parse source with
  | .ok e => e.eval env
  | .error e => .ofExcept (.error e)

def evaluate (source : String) (env : Environment) : Result Value :=
  (evaluateTraced source env).outcome

end Formula
