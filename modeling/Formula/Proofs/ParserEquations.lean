import Formula.Expr.Parser

set_option autoImplicit false

namespace Formula.Parser

open Lexer (Ending)

-- The parser's results without the bounds that its recursion needs. Each function of the parser
-- satisfies its equation on them, and what follows uses these equations only.
def Parsed.view {bound : Nat} (p : Parsed bound) : Expr × List Token := (p.expr, p.rest)

def ParsedArgs.view {bound : Nat} (p : ParsedArgs bound) : List Expr × Token × List Token :=
  (p.args, p.closing, p.rest)

def readExpression (ending : Ending) (ts : List Token) : Result (Expr × List Token) :=
  (expression ending ts).map Parsed.view

def readChain (ending : Ending) (level : Level) (ts : List Token) :
    Result (Expr × List Token) :=
  (chain ending level ts).map Parsed.view

def readTail (ending : Ending) (level : Level) (left : Expr) (ts : List Token) :
    Result (Expr × List Token) :=
  (chainRest ending level left ts).map Parsed.view

def readOperand (ending : Ending) (level : Level) (ts : List Token) :
    Result (Expr × List Token) :=
  (operand ending level ts).map Parsed.view

def readExponent (ending : Ending) (ts : List Token) : Result (Expr × List Token) :=
  (exponent ending ts).map Parsed.view

def readUnary (ending : Ending) (ts : List Token) : Result (Expr × List Token) :=
  (unary ending ts).map Parsed.view

def readPrimary (ending : Ending) (next : Token) (ts : List Token) :
    Result (Expr × List Token) :=
  (primary ending next ts).map Parsed.view

def readArguments (ending : Ending) (ts : List Token) :
    Result (List Expr × Token × List Token) :=
  (argumentList ending ts).map ParsedArgs.view

def readCall (ending : Ending) (ts : List Token) : Result (List Expr × Token × List Token) :=
  (callArguments ending ts).map ParsedArgs.view

variable (ending : Ending)

theorem read_expression_eq (ts : List Token) :
    readExpression ending ts =
      readChain ending .logical ts >>= fun (condition, rest) =>
        match rest with
        | [] => ending.token >>= fun _ => pure (condition, [])
        | next :: after =>
          if next.terminal = .question then
            readExpression ending after >>= fun (whenTrue, rest) =>
              match rest with
              | [] => ending.token >>= fun found => throw (.failed (ternaryMismatch found))
              | next :: after =>
                if next.terminal = .colon then
                  readExpression ending after >>= fun (whenFalse, rest) =>
                    pure (.ternaryOf condition whenTrue whenFalse, rest)
                else throw (.failed (ternaryMismatch next))
          else pure (condition, next :: after) := by
  simp only [readExpression, readChain]
  rw [expression]
  cases chain ending .logical ts with
  | error e => rfl
  | ok condition =>
    obtain ⟨condition, rest, shorter⟩ := condition
    cases rest with
    | nil => cases ending <;> rfl
    | cons next after =>
      by_cases question : next.terminal = .question
      · simp only [question, Except.map, Parsed.view, bind, Except.bind, if_true]
        cases expression ending after with
        | error e => rfl
        | ok whenTrue =>
          obtain ⟨whenTrue, rest, shorter⟩ := whenTrue
          cases rest with
          | nil => cases ending <;> rfl
          | cons next after =>
            by_cases colon : next.terminal = .colon
            · simp only [colon, if_true]
              cases expression ending after <;> rfl
            · simp only [colon, if_false]
              rfl
      · simp only [question, Except.map, Parsed.view, bind, Except.bind, if_false]
        rfl

theorem read_chain_eq (level : Level) (ts : List Token) :
    readChain ending level ts =
      readOperand ending level ts >>= fun (first, rest) => readTail ending level first rest := by
  simp only [readChain, readOperand, readTail]
  rw [chain]
  cases operand ending level ts with
  | error e => rfl
  | ok first =>
    simp only [Except.map, Parsed.view, bind, Except.bind]
    cases chainRest ending level first.expr first.rest <;> rfl

theorem read_tail_eq (level : Level) (left : Expr) (ts : List Token) :
    readTail ending level left ts =
      match ts with
      | [] => ending.token >>= fun _ => pure (left, [])
      | next :: rest =>
        match level.operator? next.terminal with
        | none => pure (left, next :: rest)
        | some operator =>
          readOperand ending level rest >>= fun (right, rest) =>
            readTail ending level (operator.node left right) rest := by
  simp only [readTail, readOperand]
  rw [chainRest.eq_def]
  cases ts with
  | nil => cases ending <;> rfl
  | cons next rest =>
    simp only
    cases level.operator? next.terminal with
    | none => rfl
    | some operator =>
      simp only
      cases operand ending level rest with
      | error e => rfl
      | ok right =>
        simp only [Except.map, Parsed.view, bind, Except.bind]
        cases chainRest ending level (operator.node left right.expr) right.rest <;> rfl

theorem read_tail_done {level : Level} {next : Token}
    (apart : level.operator? next.terminal = none) (left : Expr) (ts : List Token) :
    readTail ending level left (next :: ts) = .ok (left, next :: ts) := by
  rw [read_tail_eq]
  simp only [apart]
  rfl

theorem read_tail_joined {level : Level} {next : Token} {operator : Infix}
    (joins : level.operator? next.terminal = some operator) (left : Expr) (ts : List Token) :
    readTail ending level left (next :: ts) =
      readOperand ending level ts >>= fun (right, rest) =>
        readTail ending level (operator.node left right) rest := by
  rw [read_tail_eq]
  simp only [joins]

theorem read_operand_eq (level : Level) (ts : List Token) :
    readOperand ending level ts =
      match level with
      | .logical => readChain ending .equality ts
      | .equality => readChain ending .additive ts
      | .additive => readChain ending .multiplicative ts
      | .multiplicative => readExponent ending ts := by
  cases level <;> rw [readOperand, operand] <;> rfl

theorem read_exponent_eq (ts : List Token) :
    readExponent ending ts =
      readUnary ending ts >>= fun (base, rest) =>
        match rest with
        | [] => ending.token >>= fun _ => pure (base, [])
        | next :: after =>
          if next.terminal = .caret then
            readExponent ending after >>= fun (power, rest) =>
              pure (.binaryOf .power base power, rest)
          else pure (base, next :: after) := by
  simp only [readExponent, readUnary]
  rw [exponent]
  cases unary ending ts with
  | error e => rfl
  | ok base =>
    obtain ⟨base, rest, shorter⟩ := base
    cases rest with
    | nil => cases ending <;> rfl
    | cons next after =>
      by_cases caret : next.terminal = .caret
      · simp only [caret, Except.map, Parsed.view, bind, Except.bind, if_true]
        cases exponent ending after <;> rfl
      · simp only [caret, Except.map, Parsed.view, bind, Except.bind, if_false]
        rfl

theorem read_unary_eq (ts : List Token) :
    readUnary ending ts =
      match ts with
      | [] => ending.token >>= fun found => throw (.failed (mismatch .expectedExpression found))
      | next :: rest =>
        match prefixOperator? next.terminal with
        | some operator =>
          readUnary ending rest >>= fun (inner, rest) =>
            pure (.unary operator inner (next.span.cover inner.span), rest)
        | none => readPrimary ending next rest := by
  simp only [readUnary, readPrimary]
  rw [unary.eq_def]
  cases ts with
  | nil => cases ending <;> rfl
  | cons next rest =>
    simp only
    cases prefixOperator? next.terminal with
    | none => rfl
    | some operator =>
      simp only
      cases unary ending rest <;> rfl

theorem read_unary_plain {ending : Ending} {next : Token}
    (plain : prefixOperator? next.terminal = none) (ts : List Token) :
    readUnary ending (next :: ts) = readPrimary ending next ts := by
  rw [read_unary_eq]
  simp only [plain]

theorem read_unary_signed {next : Token} {operator : UnaryOp}
    (sign : prefixOperator? next.terminal = some operator) (ts : List Token) :
    readUnary ending (next :: ts) =
      readUnary ending ts >>= fun (inner, rest) =>
        pure (.unary operator inner (next.span.cover inner.span), rest) := by
  rw [read_unary_eq]
  simp only [sign]

theorem read_primary_eq (next : Token) (ts : List Token) :
    readPrimary ending next ts =
      match next.terminal with
      | .number d => pure (.literal (.number d) next.span, ts)
      | .string s => pure (.literal (.text s) next.span, ts)
      | .boolean b => pure (.literal (.boolean b) next.span, ts)
      | .identifier name =>
        match ts with
        | [] => ending.token >>= fun _ => pure (.name name next.span, [])
        | opening :: after =>
          if opening.terminal = .leftParen then
            readCall ending after >>= fun (args, closing, rest) =>
              pure (.call name args (next.span.cover closing.span), rest)
          else pure (.name name next.span, opening :: after)
      | .leftParen =>
        readExpression ending ts >>= fun (inner, rest) =>
          match rest with
          | [] => ending.token >>= fun found =>
            throw (.failed (mismatch (.missingClosingParen "expression") found))
          | closing :: after =>
            if closing.terminal = .rightParen then
              pure (.group inner (next.span.cover closing.span), after)
            else throw (.failed (mismatch (.missingClosingParen "expression") closing))
      | _ => throw (.failed (mismatch .expectedExpression next)) := by
  simp only [readPrimary, readCall, readExpression]
  rw [primary]
  cases next.terminal with
  | identifier name =>
    cases ts with
    | nil => cases ending <;> rfl
    | cons opening after =>
      by_cases paren : opening.terminal = .leftParen
      · simp only [paren, if_true]
        cases callArguments ending after <;> rfl
      · simp only [paren, if_false]
        rfl
  | leftParen =>
    simp only
    cases expression ending ts with
    | error e => rfl
    | ok inner =>
      obtain ⟨inner, rest, shorter⟩ := inner
      cases rest with
      | nil => cases ending <;> rfl
      | cons closing after =>
        by_cases paren : closing.terminal = .rightParen
        · simp only [paren, Except.map, Parsed.view, bind, Except.bind, if_true]
          rfl
        · simp only [paren, Except.map, Parsed.view, bind, Except.bind, if_false]
          rfl
  | _ => rfl

theorem read_call_eq (ts : List Token) :
    readCall ending ts =
      match ts with
      | [] => ending.token >>= fun found => throw (.failed (mismatch .expectedExpression found))
      | next :: rest =>
        if next.terminal = .rightParen then pure ([], next, rest)
        else readArguments ending (next :: rest) := by
  simp only [readCall, readArguments]
  rw [callArguments.eq_def]
  cases ts with
  | nil => cases ending <;> rfl
  | cons next rest =>
    by_cases paren : next.terminal = .rightParen
    · simp only [paren, if_true]
      rfl
    · simp only [paren, if_false]
      cases argumentList ending (next :: rest) <;> rfl

theorem read_arguments_eq (ts : List Token) :
    readArguments ending ts =
      readExpression ending ts >>= fun (first, rest) =>
        match rest with
        | [] => ending.token >>= fun found =>
          throw (.failed (mismatch (.missingClosingParen "arguments") found))
        | next :: after =>
          if next.terminal = .comma then
            readArguments ending after >>= fun (args, closing, rest) =>
              pure (first :: args, closing, rest)
          else if next.terminal = .rightParen then pure ([first], next, after)
          else throw (.failed (mismatch (.missingClosingParen "arguments") next)) := by
  simp only [readArguments, readExpression]
  rw [argumentList]
  cases expression ending ts with
  | error e => rfl
  | ok first =>
    obtain ⟨first, rest, shorter⟩ := first
    cases rest with
    | nil => cases ending <;> rfl
    | cons next after =>
      by_cases comma : next.terminal = .comma
      · simp only [comma, Except.map, Parsed.view, bind, Except.bind, if_true]
        cases argumentList ending after <;> rfl
      · by_cases paren : next.terminal = .rightParen
        · simp only [paren, Except.map, Parsed.view, bind, Except.bind, if_true]
          rfl
        · simp only [comma, paren, Except.map, Parsed.view, bind, Except.bind, if_false]
          rfl

theorem complete_eq (lexed : Lexer.Lexed) :
    complete lexed =
      readExpression lexed.ending lexed.tokens >>= fun (e, rest) =>
        match rest with
        | [] => lexed.ending.token >>= fun _ => pure e
        | next :: _ => throw (.failed (mismatch .unexpectedToken next)) := by
  simp only [readExpression, complete]
  cases expression lexed.ending lexed.tokens with
  | error e => rfl
  | ok parsed =>
    obtain ⟨e, rest, shorter⟩ := parsed
    cases rest with
    | nil => cases lexed.ending <;> rfl
    | cons next rest => rfl

end Formula.Parser
