set_option autoImplicit false

namespace Formula

inductive BinaryOp where
  | add
  | subtract
  | multiply
  | divide
  | remainder
  | power
  | equal
  | notEqual
  | less
  | lessEqual
  | greater
  | greaterEqual
deriving DecidableEq, Repr, Inhabited

def BinaryOp.symbol : BinaryOp → String
  | .add => "+"
  | .subtract => "-"
  | .multiply => "*"
  | .divide => "/"
  | .remainder => "%"
  | .power => "^"
  | .equal => "=="
  | .notEqual => "!="
  | .less => "<"
  | .lessEqual => "<="
  | .greater => ">"
  | .greaterEqual => ">="

inductive UnaryOp where
  | plus
  | negate
  | not
deriving DecidableEq, Repr, Inhabited

def UnaryOp.symbol : UnaryOp → String
  | .plus => "+"
  | .negate => "-"
  | .not => "!"

inductive LogicalOp where
  | and
  | or
deriving DecidableEq, Repr, Inhabited

def LogicalOp.symbol : LogicalOp → String
  | .and => "&&"
  | .or => "||"

end Formula
