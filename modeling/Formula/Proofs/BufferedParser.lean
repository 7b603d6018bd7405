import Formula.Expr.Parser
import Formula.Proofs.Scanner

set_option autoImplicit false

namespace Formula.Buffered

open Formula.Parser (Level Infix)

def mismatch (cause : String → Cause) (found : RawToken) : Error :=
  .located (cause found.describe) found.span

def ternaryMismatch (found : RawToken) : Error :=
  (mismatch .malformedTernary found).withHelp
    "a ternary needs both branches: condition ? when_true : when_false"

structure Buffer where
  scanner : Scanner
  tokens : List RawToken
  current : Nat

def Buffer.start (source : String) : Buffer := ⟨.ofSource source, [], 0⟩

inductive Act where
  | lexed (answer : Result RawToken)
  | peeked (token : RawToken)
  | advanced
  | lookedBack (token : RawToken)
  | fellThrough

structure Moment where
  buffer : Buffer
  act : Act

structure Session where
  buffer : Buffer
  moments : List Moment

def Session.start (source : String) : Session := ⟨.start source, []⟩

-- Why a parser stops: an error, or a panic of the lexer; a token that is not in the buffer; or the
-- bound on its depth.
inductive Halt where
  | stopped (stop : Stop Error)
  | outside
  | tooDeep

abbrev Machine (α : Type) := ExceptT Halt (StateM Session) α

def failed {α : Type} (e : Error) : Machine α := throw (.stopped (.failed e))

def Machine.runFrom {α : Type} (m : Machine α) (s : Session) : Except Halt α × Session :=
  m.run.run s

def buffer : Machine Buffer := do
  let session ← get
  pure session.buffer

def act (a : Act) (change : Buffer → Buffer) : Machine Unit :=
  modify fun session => ⟨change session.buffer, session.moments ++ [⟨session.buffer, a⟩]⟩

def Buffer.keep (b : Buffer) : Buffer :=
  ⟨b.scanner.next.2, b.tokens ++ b.scanner.next.1.toOption.toList, b.current⟩

def lexNext : Machine Unit := do
  let b ← buffer
  act (.lexed b.scanner.next.1) Buffer.keep
  match b.scanner.next.1 with
  | .ok _ => pure ()
  | .error stop => throw (.stopped stop)

def fill : Nat → Machine Unit
  | 0 => pure ()
  | missing + 1 => do
    lexNext
    fill missing

def peek : Machine RawToken := do
  let b ← buffer
  fill (b.current + 1 - b.tokens.length)
  let b ← buffer
  match b.tokens[b.current]? with
  | some token => do
    act (.peeked token) id
    pure token
  | none => throw .outside

def previous : Machine RawToken := do
  let b ← buffer
  match b.current with
  | 0 => throw .outside
  | last + 1 =>
    match b.tokens[last]? with
    | some token => do
      act (.lookedBack token) id
      pure token
    | none => throw .outside

def Buffer.accept (b : Buffer) : Buffer := ⟨b.scanner, b.tokens, b.current + 1⟩

def advance : Machine Unit := act .advanced Buffer.accept

def check (type : TokenType) : Machine Bool := do
  let next ← peek
  pure (!next.isEof && next.type == type)

def matchTypes : List TokenType → Machine Bool
  | [] => pure false
  | type :: types => do
    let found ← check type
    if found then do
      advance
      pure true
    else matchTypes types

def matchRightParen (context : String) : Machine Unit := do
  let closed ← matchTypes [.rightParen]
  if closed then pure ()
  else do
    let next ← peek
    failed (mismatch (.missingClosingParen context) next)

def levelTypes : Level → List TokenType
  | .logical => [.and, .or]
  | .equality => [.equalEqual, .bangEqual, .greater, .greaterEqual, .less, .lessEqual]
  | .additive => [.plus, .minus]
  | .multiplicative => [.star, .slash, .percent]

def levelOperator : Level → TokenType → Infix
  | .logical, .and => .logical .and
  | .logical, _ => .logical .or
  | .equality, .equalEqual => .binary .equal
  | .equality, .bangEqual => .binary .notEqual
  | .equality, .greater => .binary .greater
  | .equality, .greaterEqual => .binary .greaterEqual
  | .equality, .less => .binary .less
  | .equality, _ => .binary .lessEqual
  | .additive, .plus => .binary .add
  | .additive, _ => .binary .subtract
  | .multiplicative, .star => .binary .multiply
  | .multiplicative, .slash => .binary .divide
  | .multiplicative, _ => .binary .remainder

def prefixTypes : List TokenType := [.plus, .minus, .bang]

def prefixOf : TokenType → UnaryOp
  | .plus => .plus
  | .minus => .negate
  | _ => .not

mutual

def expression : Nat → Machine Expr
  | 0 => throw .tooDeep
  | depth + 1 => do
    let condition ← chain depth .logical
    let asked ← matchTypes [.question]
    if asked then do
      let whenTrue ← expression depth
      let answered ← matchTypes [.colon]
      if answered then do
        let whenFalse ← expression depth
        pure (.ternaryOf condition whenTrue whenFalse)
      else do
        let next ← peek
        failed (ternaryMismatch next)
    else pure condition

def chain : Nat → Level → Machine Expr
  | 0, _ => throw .tooDeep
  | depth + 1, level => do
    let first ← operand depth level
    chainRest depth level first

def chainRest : Nat → Level → Expr → Machine Expr
  | 0, _, _ => throw .tooDeep
  | depth + 1, level, left => do
    let joined ← matchTypes (levelTypes level)
    if joined then do
      let token ← previous
      let right ← operand depth level
      chainRest depth level ((levelOperator level token.type).node left right)
    else pure left

def operand : Nat → Level → Machine Expr
  | 0, _ => throw .tooDeep
  | depth + 1, .logical => chain depth .equality
  | depth + 1, .equality => chain depth .additive
  | depth + 1, .additive => chain depth .multiplicative
  | depth + 1, .multiplicative => exponent depth

def exponent : Nat → Machine Expr
  | 0 => throw .tooDeep
  | depth + 1 => do
    let base ← unary depth
    let raised ← matchTypes [.caret]
    if raised then do
      let power ← exponent depth
      pure (.binaryOf .power base power)
    else pure base

def unary : Nat → Machine Expr
  | 0 => throw .tooDeep
  | depth + 1 => do
    let signed ← matchTypes prefixTypes
    if signed then do
      let token ← previous
      let right ← unary depth
      pure (.unary (prefixOf token.type) right (token.span.cover right.span))
    else call depth

def call : Nat → Machine Expr
  | 0 => throw .tooDeep
  | depth + 1 => do
    let callee ← primary depth
    match callee with
    | .name name span => do
      let opened ← matchTypes [.leftParen]
      if opened then do
        let args ← enclosed depth
        let closing ← previous
        pure (.call name args (span.cover closing.span))
      else pure (.name name span)
    | other => pure other

def enclosed : Nat → Machine (List Expr)
  | 0 => throw .tooDeep
  | depth + 1 => do
    let closed ← matchTypes [.rightParen]
    if closed then pure []
    else do
      let args ← arguments depth []
      matchRightParen "arguments"
      pure args

def arguments : Nat → List Expr → Machine (List Expr)
  | 0, _ => throw .tooDeep
  | depth + 1, args => do
    let arg ← expression depth
    let more ← matchTypes [.comma]
    if more then arguments depth (args ++ [arg])
    else pure (args ++ [arg])

def primary : Nat → Machine Expr
  | 0 => throw .tooDeep
  | depth + 1 => do
    let simple ← matchTypes [.number, .string, .boolean]
    if simple then do
      let token ← previous
      match token.literal with
      | some value => pure (.literal value token.span)
      | none => do
        act .fellThrough id
        named depth
    else named depth

def named : Nat → Machine Expr
  | 0 => throw .tooDeep
  | depth + 1 => do
    let isName ← matchTypes [.identifier]
    if isName then do
      let token ← previous
      pure (.name token.lexeme token.span)
    else do
      let opened ← matchTypes [.leftParen]
      if opened then do
        let opening ← previous
        let inner ← expression depth
        matchRightParen "expression"
        let closing ← previous
        pure (.group inner (opening.span.cover closing.span))
      else do
        let next ← peek
        failed (mismatch .expectedExpression next)

end

-- Sixteen calls for each token are more than the productions nest. A token takes a byte at least,
-- unless it is in the buffer already, or the end.
def Buffer.depth (b : Buffer) : Nat := 16 * (b.scanner.source.utf8ByteSize + 2)

def formula : Machine Expr := do
  let b ← buffer
  let e ← expression b.depth
  let next ← peek
  if next.isEof then pure e else failed (mismatch .unexpectedToken next)

def formulas (s : Session) : Nat → List (Except Halt Expr) × Session
  | 0 => ([], s)
  | n + 1 =>
    let before := formulas s n
    let answer := formula.runFrom before.2
    (before.1 ++ [answer.1], answer.2)

end Formula.Buffered
