import Formula.Span
import Formula.Value

set_option autoImplicit false

namespace Formula

inductive Terminal where
  | plus
  | minus
  | star
  | slash
  | caret
  | percent
  | leftParen
  | rightParen
  | comma
  | question
  | colon
  | bang
  | bangEqual
  | equalEqual
  | greater
  | greaterEqual
  | less
  | lessEqual
  | and
  | or
  | number (value : Decimal)
  | string (value : String)
  | boolean (value : Bool)
  | identifier (name : String)
  | eof
deriving DecidableEq, Repr, Inhabited

namespace Terminal

def name : Terminal → String
  | .plus => "Plus"
  | .minus => "Minus"
  | .star => "Star"
  | .slash => "Slash"
  | .caret => "Caret"
  | .percent => "Percent"
  | .leftParen => "Left Paren"
  | .rightParen => "Right Paren"
  | .comma => "Comma"
  | .question => "Question"
  | .colon => "Colon"
  | .bang => "Bang"
  | .bangEqual => "Bang Equal"
  | .equalEqual => "Equal Equal"
  | .greater => "Greater"
  | .greaterEqual => "Greater Equal"
  | .less => "Less"
  | .lessEqual => "Less Equal"
  | .and => "And"
  | .or => "Or"
  | .number _ => "Number"
  | .string _ => "String"
  | .boolean _ => "Boolean"
  | .identifier _ => "Identifier"
  | .eof => "EOF"

def literal? : Terminal → Option Value
  | .number d => some (.number d)
  | .string s => some (.text s)
  | .boolean b => some (.boolean b)
  | _ => none

end Terminal

-- A token; `lexeme` is its exact source text, with the quotes of a string.
structure Token where
  terminal : Terminal
  lexeme : String
  span : Span
deriving DecidableEq, Repr, Inhabited

namespace Token

def eofAt (position : Nat) : Token := ⟨.eof, "", ⟨position, position⟩⟩

def isEof (t : Token) : Bool := t.terminal == .eof

def column (t : Token) : Nat := t.span.stop

def describe (t : Token) : String :=
  if t.isEof then "EOF" else "'" ++ t.lexeme ++ "'"

def display (t : Token) : String :=
  match t.terminal.literal? with
  | some value =>
    "<" ++ t.terminal.name ++ " " ++ t.lexeme ++ " " ++ value.display ++ " " ++
      toString t.column ++ ">"
  | none => "<" ++ t.terminal.name ++ " " ++ t.lexeme ++ " " ++ toString t.column ++ ">"

end Token

end Formula
