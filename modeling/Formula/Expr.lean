import Formula.Operator
import Formula.Span
import Formula.Value

set_option autoImplicit false

namespace Formula

inductive Expr where
  | literal (value : Value) (span : Span)
  | name (name : String) (span : Span)
  | group (inner : Expr) (span : Span)
  | unary (operator : UnaryOp) (operand : Expr) (span : Span)
  | binary (operator : BinaryOp) (left right : Expr) (span : Span)
  | logical (operator : LogicalOp) (left right : Expr) (span : Span)
  | ternary (condition whenTrue whenFalse : Expr) (span : Span)
  | call (name : String) (args : List Expr) (span : Span)
deriving Repr, Inhabited

namespace Expr

def span : Expr → Span
  | literal _ span => span
  | name _ span => span
  | group _ span => span
  | unary _ _ span => span
  | binary _ _ _ span => span
  | logical _ _ _ span => span
  | ternary _ _ _ span => span
  | call _ _ span => span

def binaryOf (operator : BinaryOp) (left right : Expr) : Expr :=
  binary operator left right (left.span.cover right.span)

def logicalOf (operator : LogicalOp) (left right : Expr) : Expr :=
  logical operator left right (left.span.cover right.span)

def ternaryOf (condition whenTrue whenFalse : Expr) : Expr :=
  ternary condition whenTrue whenFalse (condition.span.cover whenFalse.span)

def children : Expr → List Expr
  | literal _ _ => []
  | name _ _ => []
  | group inner _ => [inner]
  | unary _ operand _ => [operand]
  | binary _ left right _ => [left, right]
  | logical _ left right _ => [left, right]
  | ternary condition whenTrue whenFalse _ => [condition, whenTrue, whenFalse]
  | call _ args _ => args

mutual

def nodes : Expr → List Expr
  | literal value span => [literal value span]
  | name n span => [name n span]
  | group inner span => group inner span :: nodes inner
  | unary operator operand span => unary operator operand span :: nodes operand
  | binary operator left right span =>
    binary operator left right span :: (nodes left ++ nodes right)
  | logical operator left right span =>
    logical operator left right span :: (nodes left ++ nodes right)
  | ternary condition whenTrue whenFalse span =>
    ternary condition whenTrue whenFalse span ::
      (nodes condition ++ nodes whenTrue ++ nodes whenFalse)
  | call n args span => call n args span :: nodesOfAll args

def nodesOfAll : List Expr → List Expr
  | [] => []
  | e :: es => nodes e ++ nodesOfAll es

end

end Expr

end Formula
