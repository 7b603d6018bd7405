import Formula.Expr
import Formula.Text.Quoted

set_option autoImplicit false

namespace Formula.Expr

def literalText : Value → String
  | .text s => Text.quote s
  | value => value.display

mutual

def print : Expr → String
  | literal value _ => literalText value
  | name n _ => n
  | group inner _ => "(group " ++ print inner ++ ")"
  | unary operator operand _ => "(" ++ operator.symbol ++ " " ++ print operand ++ ")"
  | binary operator left right _ =>
    "(" ++ operator.symbol ++ " " ++ print left ++ " " ++ print right ++ ")"
  | logical operator left right _ =>
    "(" ++ operator.symbol ++ " " ++ print left ++ " " ++ print right ++ ")"
  | ternary condition whenTrue whenFalse _ =>
    "(?: " ++ print condition ++ " " ++ print whenTrue ++ " " ++ print whenFalse ++ ")"
  | call n args _ => "(call " ++ n ++ printAll args ++ ")"

def printAll : List Expr → String
  | [] => ""
  | e :: es => " " ++ print e ++ printAll es

end

end Formula.Expr
