import Formula.Error
import Formula.Expr
import Formula.Token.Lexer

set_option autoImplicit false

namespace Formula

namespace Parser

open Lexer

inductive Level where
  | logical
  | equality
  | additive
  | multiplicative
deriving DecidableEq, Repr

inductive Infix where
  | logical (operator : LogicalOp)
  | binary (operator : BinaryOp)
deriving DecidableEq, Repr

def Level.operator? : Level → Terminal → Option Infix
  | .logical, .and => some (.logical .and)
  | .logical, .or => some (.logical .or)
  | .equality, .equalEqual => some (.binary .equal)
  | .equality, .bangEqual => some (.binary .notEqual)
  | .equality, .greater => some (.binary .greater)
  | .equality, .greaterEqual => some (.binary .greaterEqual)
  | .equality, .less => some (.binary .less)
  | .equality, .lessEqual => some (.binary .lessEqual)
  | .additive, .plus => some (.binary .add)
  | .additive, .minus => some (.binary .subtract)
  | .multiplicative, .star => some (.binary .multiply)
  | .multiplicative, .slash => some (.binary .divide)
  | .multiplicative, .percent => some (.binary .remainder)
  | _, _ => none

def Infix.node : Infix → Expr → Expr → Expr
  | .logical operator => .logicalOf operator
  | .binary operator => .binaryOf operator

def prefixOperator? : Terminal → Option UnaryOp
  | .plus => some .plus
  | .minus => some .negate
  | .bang => some .not
  | _ => none

def mismatch (cause : String → Cause) (found : Token) : Error :=
  .located (cause found.describe) found.span

def ternaryMismatch (found : Token) : Error :=
  (mismatch .malformedTernary found).withHelp
    "a ternary needs both branches: condition ? when_true : when_false"

-- A tree and the tokens behind it, which are fewer than a bound.
structure Parsed (bound : Nat) where
  expr : Expr
  rest : List Token
  shorter : rest.length < bound

structure ParsedArgs (bound : Nat) where
  args : List Expr
  closing : Token
  rest : List Token
  shorter : rest.length < bound

def Level.rank : Level → Nat
  | .logical => 4
  | .equality => 3
  | .additive => 2
  | .multiplicative => 1

@[simp] theorem rank_logical : Level.logical.rank = 4 := rfl

@[simp] theorem rank_equality : Level.equality.rank = 3 := rfl

@[simp] theorem rank_additive : Level.additive.rank = 2 := rfl

@[simp] theorem rank_multiplicative : Level.multiplicative.rank = 1 := rfl

theorem rank_bounded (level : Level) : level.rank ≤ 4 := by
  cases level <;> decide

mutual

def expression (ending : Ending) (tokens : List Token) :
    Result (Parsed tokens.length) := do
  let condition ← chain ending .logical tokens
  match h : condition.rest with
  | [] => do
    let _ ← ending.token
    pure condition
  | next :: afterQuestion =>
    if next.terminal = .question then do
      have _ : afterQuestion.length < tokens.length := by
        have := condition.shorter
        simp only [h, List.length_cons] at this
        omega
      let whenTrue ← expression ending afterQuestion
      match h : whenTrue.rest with
      | [] => do
        let found ← ending.token
        throw (.failed (ternaryMismatch found))
      | next :: afterColon =>
        if next.terminal = .colon then do
          have _ : afterColon.length < tokens.length := by
            have := whenTrue.shorter
            simp only [h, List.length_cons] at this
            omega
          let whenFalse ← expression ending afterColon
          pure ⟨.ternaryOf condition.expr whenTrue.expr whenFalse.expr, whenFalse.rest, by
            have := whenFalse.shorter
            omega⟩
        else throw (.failed (ternaryMismatch next))
    else pure condition
termination_by tokens.length * 13 + 11

def chain (ending : Ending) (level : Level) (tokens : List Token) :
    Result (Parsed tokens.length) := do
  let first ← operand ending level tokens
  have _ := first.shorter
  let joined ← chainRest ending level first.expr first.rest
  pure ⟨joined.expr, joined.rest, by
    have := joined.shorter
    omega⟩
termination_by tokens.length * 13 + 2 * level.rank + 2

def chainRest (ending : Ending) (level : Level) (left : Expr) (tokens : List Token) :
    Result (Parsed (tokens.length + 1)) :=
  match tokens with
  | [] => do
    let _ ← ending.token
    pure ⟨left, [], by simp⟩
  | next :: rest =>
    match level.operator? next.terminal with
    | none => pure ⟨left, next :: rest, by simp⟩
    | some operator => do
      have _ := rank_bounded level
      let right ← operand ending level rest
      have _ := right.shorter
      let joined ← chainRest ending level (operator.node left right.expr) right.rest
      pure ⟨joined.expr, joined.rest, by
        have := joined.shorter
        simp only [List.length_cons]
        omega⟩
termination_by tokens.length * 13

def operand (ending : Ending) (level : Level) (tokens : List Token) :
    Result (Parsed tokens.length) :=
  match level with
  | .logical => chain ending .equality tokens
  | .equality => chain ending .additive tokens
  | .additive => chain ending .multiplicative tokens
  | .multiplicative => exponent ending tokens
termination_by tokens.length * 13 + 2 * level.rank + 1

def exponent (ending : Ending) (tokens : List Token) : Result (Parsed tokens.length) := do
  let base ← unary ending tokens
  match h : base.rest with
  | [] => do
    let _ ← ending.token
    pure base
  | next :: rest =>
    if next.terminal = .caret then do
      have _ : rest.length < tokens.length := by
        have := base.shorter
        simp only [h, List.length_cons] at this
        omega
      let power ← exponent ending rest
      pure ⟨.binaryOf .power base.expr power.expr, power.rest, by
        have := power.shorter
        omega⟩
    else pure base
termination_by tokens.length * 13 + 2

def unary (ending : Ending) (tokens : List Token) : Result (Parsed tokens.length) :=
  match tokens with
  | [] => do
    let found ← ending.token
    throw (.failed (mismatch .expectedExpression found))
  | next :: rest =>
    match prefixOperator? next.terminal with
    | some operator => do
      let inner ← unary ending rest
      pure ⟨.unary operator inner.expr (next.span.cover inner.expr.span), inner.rest, by
        have := inner.shorter
        simp only [List.length_cons]
        omega⟩
    | none => primary ending next rest
termination_by tokens.length * 13 + 1

def primary (ending : Ending) (next : Token) (rest : List Token) :
    Result (Parsed (rest.length + 1)) :=
  match next.terminal with
  | .number d => pure ⟨.literal (.number d) next.span, rest, by simp⟩
  | .string s => pure ⟨.literal (.text s) next.span, rest, by simp⟩
  | .boolean b => pure ⟨.literal (.boolean b) next.span, rest, by simp⟩
  | .identifier name =>
    match rest with
    | [] => do
      let _ ← ending.token
      pure ⟨.name name next.span, [], by simp⟩
    | opening :: rest =>
      if opening.terminal = .leftParen then do
        let arguments ← callArguments ending rest
        pure ⟨.call name arguments.args (next.span.cover arguments.closing.span),
          arguments.rest, by
          have := arguments.shorter
          simp only [List.length_cons]
          omega⟩
      else pure ⟨.name name next.span, opening :: rest, by simp⟩
  | .leftParen => do
    let inner ← expression ending rest
    match h : inner.rest with
    | [] => do
      let found ← ending.token
      throw (.failed (mismatch (.missingClosingParen "expression") found))
    | closing :: after =>
      if closing.terminal = .rightParen then
        pure ⟨.group inner.expr (next.span.cover closing.span), after, by
          have := inner.shorter
          simp only [h, List.length_cons] at this
          omega⟩
      else throw (.failed (mismatch (.missingClosingParen "expression") closing))
  | _ => throw (.failed (mismatch .expectedExpression next))
termination_by (rest.length + 1) * 13

def callArguments (ending : Ending) (tokens : List Token) :
    Result (ParsedArgs (tokens.length + 1)) :=
  match tokens with
  | [] => do
    let found ← ending.token
    throw (.failed (mismatch .expectedExpression found))
  | next :: rest =>
    if next.terminal = .rightParen then pure ⟨[], next, rest, by
      simp only [List.length_cons]
      omega⟩
    else do
      let listed ← argumentList ending (next :: rest)
      pure ⟨listed.args, listed.closing, listed.rest, by
        have := listed.shorter
        omega⟩
termination_by tokens.length * 13 + 13

def argumentList (ending : Ending) (tokens : List Token) :
    Result (ParsedArgs tokens.length) := do
  let first ← expression ending tokens
  match h : first.rest with
  | [] => do
    let found ← ending.token
    throw (.failed (mismatch (.missingClosingParen "arguments") found))
  | next :: rest =>
    have _ : rest.length < tokens.length := by
      have := first.shorter
      simp only [h, List.length_cons] at this
      omega
    if next.terminal = .comma then do
      let more ← argumentList ending rest
      pure ⟨first.expr :: more.args, more.closing, more.rest, by
        have := more.shorter
        omega⟩
    else if next.terminal = .rightParen then pure ⟨[first.expr], next, rest, by omega⟩
    else throw (.failed (mismatch (.missingClosingParen "arguments") next))
termination_by tokens.length * 13 + 12

end

def complete (lexed : Lexed) : Result Expr := do
  let parsed ← expression lexed.ending lexed.tokens
  match parsed.rest with
  | [] => do
    let _ ← lexed.ending.token
    pure parsed.expr
  | next :: _ => throw (.failed (mismatch .unexpectedToken next))

end Parser

def parse (source : String) : Result Expr := Parser.complete (Lexer.lex source)

end Formula
