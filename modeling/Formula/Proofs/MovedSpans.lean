import Formula.Proofs.ParserGrammar

set_option autoImplicit false

namespace Formula

structure Move where
  place : Span → Span
  covers : ∀ a b, place (a.cover b) = (place a).cover (place b)

def Token.move (f : Move) (t : Token) : Token := { t with span := f.place t.span }

@[simp] theorem Token.move_terminal (f : Move) (t : Token) :
    (t.move f).terminal = t.terminal := rfl

@[simp] theorem Token.move_span (f : Move) (t : Token) : (t.move f).span = f.place t.span := rfl

def Error.move (f : Move) (e : Error) : Error := { e with span := e.span.map f.place }

def Stop.move (f : Move) (stop : Stop Error) : Stop Error := stop.map (Error.move f)

namespace Expr

mutual

def move (f : Move) : Expr → Expr
  | literal value span => literal value (f.place span)
  | name n span => name n (f.place span)
  | group inner span => group (move f inner) (f.place span)
  | unary operator operand span => unary operator (move f operand) (f.place span)
  | binary operator left right span => binary operator (move f left) (move f right) (f.place span)
  | logical operator left right span => logical operator (move f left) (move f right) (f.place span)
  | ternary condition whenTrue whenFalse span =>
    ternary (move f condition) (move f whenTrue) (move f whenFalse) (f.place span)
  | call n args span => call n (moveAll f args) (f.place span)

def moveAll (f : Move) : List Expr → List Expr
  | [] => []
  | e :: es => move f e :: moveAll f es

end

@[simp] theorem move_span (f : Move) (e : Expr) : (e.move f).span = f.place e.span := by
  cases e <;> rfl

end Expr

namespace Lexer

def Ending.move (f : Move) : Ending → Ending
  | .eof token => .eof (token.move f)
  | .fault e => .fault (e.move f)

def Lexed.move (f : Move) (lexed : Lexed) : Lexed :=
  ⟨lexed.tokens.map (Token.move f), lexed.ending.move f⟩

end Lexer

def moved {α β : Type} (f : Move) (g : α → β) : Result α → Result β
  | .ok a => .ok (g a)
  | .error e => .error (e.move f)

theorem bind_moved {α β γ δ : Type} {f : Move} {g : α → β} {h : γ → δ}
    {x : Result α} {x' : Result β} {next : α → Result γ}
    {next' : β → Result δ} (first : x' = moved f g x)
    (later : ∀ a, x = .ok a → next' (g a) = moved f h (next a)) :
    x' >>= next' = moved f h (x >>= next) := by
  subst first
  cases x with
  | error e => rfl
  | ok a => exact later a rfl

namespace Parser

open Grammar
open Lexer (Ending Lexed)

def moveRead (f : Move) (read : Expr × List Token) : Expr × List Token :=
  (read.1.move f, read.2.map (Token.move f))

def moveArguments (f : Move) (read : List Expr × Token × List Token) :
    List Expr × Token × List Token :=
  (Expr.moveAll f read.1, read.2.1.move f, read.2.2.map (Token.move f))

section

variable (f : Move) (ending : Ending)

theorem ending_moved : (ending.move f).token = moved f (Token.move f) ending.token := by
  cases ending <;> rfl

theorem node_moved (operator : Infix) (left right : Expr) :
    operator.node (left.move f) (right.move f) = (operator.node left right).move f := by
  cases operator <;>
    simp only [Infix.node, Expr.binaryOf, Expr.logicalOf, Expr.move, Expr.move_span, f.covers]

theorem ternary_moved (condition whenTrue whenFalse : Expr) :
    Expr.ternaryOf (condition.move f) (whenTrue.move f) (whenFalse.move f) =
      (Expr.ternaryOf condition whenTrue whenFalse).move f := by
  simp only [Expr.ternaryOf, Expr.move, Expr.move_span, f.covers]

-- The recursion is the parser's, as for its derivations: each `shorter` makes a later call smaller.
mutual

theorem expression_moved (ts : List Token) :
    readExpression (ending.move f) (ts.map (Token.move f)) =
      moved f (moveRead f) (readExpression ending ts) := by
  rw [read_expression_eq, read_expression_eq]
  refine bind_moved (chain_moved .logical ts) ?_
  rintro ⟨condition, behind⟩ first
  obtain ⟨p, tokens, -⟩ := chain_derives ending .logical ts condition behind first
  have shorter := behind_shorter tokens
  cases behind with
  | nil => exact bind_moved (ending_moved f ending) fun _ _ => rfl
  | cons question after =>
    simp only [List.length_cons] at shorter
    simp only [moveRead, List.map_cons, Token.move_terminal]
    by_cases isQuestion : question.terminal = .question
    · simp only [isQuestion, if_true]
      refine bind_moved (expression_moved after) ?_
      rintro ⟨whenTrue, behind⟩ second
      obtain ⟨q, branch, -⟩ := expression_derives ending after whenTrue behind second
      have shorter := behind_shorter branch
      cases behind with
      | nil => exact bind_moved (ending_moved f ending) fun _ _ => rfl
      | cons colon after =>
        simp only [List.length_cons] at shorter
        simp only [moveRead, List.map_cons, Token.move_terminal]
        by_cases isColon : colon.terminal = .colon
        · simp only [isColon, if_true]
          refine bind_moved (expression_moved after) ?_
          rintro ⟨whenFalse, behind⟩ -
          simp only [moveRead, ternary_moved f]
          rfl
        · simp only [isColon, if_false]
          rfl
    · simp only [isQuestion, if_false]
      rfl
termination_by ts.length * 13 + 11

theorem chain_moved (level : Level) (ts : List Token) :
    readChain (ending.move f) level (ts.map (Token.move f)) =
      moved f (moveRead f) (readChain ending level ts) := by
  rw [read_chain_eq, read_chain_eq]
  refine bind_moved (operand_moved level ts) ?_
  rintro ⟨first, behind⟩ operand
  obtain ⟨p, tokens, -⟩ := operand_derives ending level ts first behind operand
  have shorter := behind_shorter tokens
  exact tail_moved level first behind
termination_by ts.length * 13 + 2 * level.rank + 2

theorem tail_moved (level : Level) (left : Expr) (ts : List Token) :
    readTail (ending.move f) level (left.move f) (ts.map (Token.move f)) =
      moved f (moveRead f) (readTail ending level left ts) := by
  rw [read_tail_eq, read_tail_eq]
  cases ts with
  | nil => exact bind_moved (ending_moved f ending) fun _ _ => rfl
  | cons next after =>
    have bounded := rank_bounded level
    have shorter : after.length < (next :: after).length := Nat.lt_succ_self _
    simp only [List.map_cons, Token.move_terminal]
    cases joins : level.operator? next.terminal with
    | none => rfl
    | some operator =>
      refine bind_moved (operand_moved level after) ?_
      rintro ⟨right, behind⟩ operand
      obtain ⟨p, tokens, -⟩ := operand_derives ending level after right behind operand
      have shorterTail := behind_shorter tokens
      simp only [moveRead, node_moved f]
      exact tail_moved level (operator.node left right) behind
termination_by ts.length * 13

theorem operand_moved (level : Level) (ts : List Token) :
    readOperand (ending.move f) level (ts.map (Token.move f)) =
      moved f (moveRead f) (readOperand ending level ts) := by
  rw [read_operand_eq, read_operand_eq]
  cases level with
  | logical => exact chain_moved .equality ts
  | equality => exact chain_moved .additive ts
  | additive => exact chain_moved .multiplicative ts
  | multiplicative => exact exponent_moved ts
termination_by ts.length * 13 + 2 * level.rank + 1

theorem exponent_moved (ts : List Token) :
    readExponent (ending.move f) (ts.map (Token.move f)) =
      moved f (moveRead f) (readExponent ending ts) := by
  rw [read_exponent_eq, read_exponent_eq]
  refine bind_moved (unary_moved ts) ?_
  rintro ⟨base, behind⟩ first
  obtain ⟨p, tokens, -⟩ := unary_derives ending ts base behind first
  have shorter := behind_shorter tokens
  cases behind with
  | nil => exact bind_moved (ending_moved f ending) fun _ _ => rfl
  | cons caret after =>
    simp only [List.length_cons] at shorter
    simp only [moveRead, List.map_cons, Token.move_terminal]
    by_cases isCaret : caret.terminal = .caret
    · simp only [isCaret, if_true]
      refine bind_moved (exponent_moved after) ?_
      rintro ⟨power, behind⟩ -
      exact congrArg (fun e => Except.ok (e, _)) (node_moved f (.binary .power) base power)
    · simp only [isCaret, if_false]
      rfl
termination_by ts.length * 13 + 2

theorem unary_moved (ts : List Token) :
    readUnary (ending.move f) (ts.map (Token.move f)) =
      moved f (moveRead f) (readUnary ending ts) := by
  rw [read_unary_eq, read_unary_eq]
  cases ts with
  | nil => exact bind_moved (ending_moved f ending) fun _ _ => rfl
  | cons next after =>
    have shorter : after.length < (next :: after).length := Nat.lt_succ_self _
    simp only [List.map_cons, Token.move_terminal]
    cases prefixOperator? next.terminal with
    | none => exact primary_moved next after
    | some operator =>
      refine bind_moved (unary_moved after) ?_
      rintro ⟨inner, behind⟩ -
      simp only [moveRead, Token.move_span, Expr.move_span, ← f.covers]
      rfl
termination_by ts.length * 13 + 1

theorem primary_moved (next : Token) (ts : List Token) :
    readPrimary (ending.move f) (next.move f) (ts.map (Token.move f)) =
      moved f (moveRead f) (readPrimary ending next ts) := by
  rw [read_primary_eq, read_primary_eq, Token.move_terminal]
  cases next.terminal with
  | identifier name =>
    cases ts with
    | nil => exact bind_moved (ending_moved f ending) fun _ _ => rfl
    | cons opening after =>
      simp only [List.map_cons, Token.move_terminal]
      by_cases isOpening : opening.terminal = .leftParen
      · simp only [isOpening, if_true]
        refine bind_moved (call_moved after) ?_
        rintro ⟨args, closing, behind⟩ -
        simp only [moveArguments, Token.move_span, ← f.covers]
        rfl
      · simp only [isOpening, if_false]
        rfl
  | leftParen =>
    refine bind_moved (expression_moved ts) ?_
    rintro ⟨inner, behind⟩ -
    cases behind with
    | nil => exact bind_moved (ending_moved f ending) fun _ _ => rfl
    | cons closing after =>
      simp only [moveRead, List.map_cons, Token.move_terminal]
      by_cases isClosing : closing.terminal = .rightParen
      · simp only [isClosing, if_true, Token.move_span, ← f.covers]
        rfl
      · simp only [isClosing, if_false]
        rfl
  | _ => rfl
termination_by (ts.length + 1) * 13

theorem call_moved (ts : List Token) :
    readCall (ending.move f) (ts.map (Token.move f)) =
      moved f (moveArguments f) (readCall ending ts) := by
  rw [read_call_eq, read_call_eq]
  cases ts with
  | nil => exact bind_moved (ending_moved f ending) fun _ _ => rfl
  | cons next after =>
    simp only [List.map_cons, Token.move_terminal]
    by_cases isClosing : next.terminal = .rightParen
    · simp only [isClosing, if_true]
      rfl
    · simp only [isClosing, if_false]
      exact arguments_moved (next :: after)
termination_by ts.length * 13 + 13

theorem arguments_moved (ts : List Token) :
    readArguments (ending.move f) (ts.map (Token.move f)) =
      moved f (moveArguments f) (readArguments ending ts) := by
  rw [read_arguments_eq, read_arguments_eq]
  refine bind_moved (expression_moved ts) ?_
  rintro ⟨arg, behind⟩ first
  obtain ⟨p, tokens, -⟩ := expression_derives ending ts arg behind first
  have shorter := behind_shorter tokens
  cases behind with
  | nil => exact bind_moved (ending_moved f ending) fun _ _ => rfl
  | cons next after =>
    simp only [List.length_cons] at shorter
    simp only [moveRead, List.map_cons, Token.move_terminal]
    by_cases isComma : next.terminal = .comma
    · simp only [isComma, if_true]
      refine bind_moved (arguments_moved after) ?_
      rintro ⟨more, closing, behind⟩ -
      rfl
    · by_cases isClosing : next.terminal = .rightParen
      · simp only [isClosing, if_true]
        rfl
      · simp only [isComma, isClosing, if_false]
        rfl
termination_by ts.length * 13 + 12

end

theorem complete_moved (lexed : Lexed) :
    complete (lexed.move f) = moved f (Expr.move f) (complete lexed) := by
  rw [complete_eq, complete_eq]
  refine bind_moved (expression_moved f lexed.ending lexed.tokens) ?_
  rintro ⟨e, behind⟩ -
  cases behind with
  | nil => exact bind_moved (ending_moved f lexed.ending) fun _ _ => rfl
  | cons next after => rfl

end

end Parser

end Formula
