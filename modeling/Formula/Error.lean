import Formula.Arity
import Formula.Span
import Formula.Stop
import Formula.Value

set_option autoImplicit false

namespace Formula

inductive NumberFault where
  | noDigitAfterPoint
  | noDigitInExponent
  | unreadable (fault : Decimal.TextFault)
  | outOfRange
deriving DecidableEq, Repr

inductive Cause where
  | unexpectedCharacter (found : Char)
  | unterminatedString
  | malformedNumber (lexeme reason : String)
  | incompleteOperator (operator : Char)
  | expectedExpression (found : String)
  | missingClosingParen (context found : String)
  | malformedTernary (found : String)
  | unexpectedToken (found : String)
  | unknownVariable (name : String)
  | unknownFunction (name : String)
  | notAVariable (name : String)
  | notAFunction (name : String)
  | arityMismatch (name : String) (expected : Arity) (got : Nat)
  | typeMismatch (name : String) (position : Nat) (expected got : Kind)
  | invalidArgument (name : String) (message : String)
  | nativeFailure (message : String)
  | divisionByZero
  | unsupportedOperation (operator : String) (left right : Kind)
  | unsupportedUnaryOperation (operator : String) (operand : Kind)
  | domainError (function : String) (message : String)
  | numberOutOfRange (operation : String)
  | alreadyDeclared (name : String)
  | unknownDataType (name found : String)
deriving DecidableEq, Repr

inductive Category where
  | lexical
  | parse
  | resolution
  | call
  | arithmetic
  | declaration
  | host
deriving DecidableEq, Repr

def Category.title : Category → String
  | .lexical => "Lexical Error"
  | .parse => "Parse Error"
  | .resolution => "Resolution Error"
  | .call => "Call Error"
  | .arithmetic => "Arithmetic Error"
  | .declaration => "Declaration Error"
  | .host => "Host Data Error"

def NumberFault.message (lexeme : String) : NumberFault → String
  | .noDigitAfterPoint => "expected a digit after '.'"
  | .noDigitInExponent => "expected a digit in the exponent"
  | .unreadable .noDigits => "cannot parse integer from empty string"
  | .unreadable .notADigit => "invalid digit found in string"
  | .unreadable .exponentTooLarge => "number too large to fit in target type"
  | .unreadable .exponentTooSmall => "number too small to fit in target type"
  | .unreadable .scaleTooLarge => "Exponent overflow when parsing '" ++ lexeme ++ "'"
  | .outOfRange => "the exponent is outside the supported range"

namespace Cause

def category : Cause → Category
  | .unexpectedCharacter _ | .unterminatedString | .malformedNumber _ _
  | .incompleteOperator _ => .lexical
  | .expectedExpression _ | .missingClosingParen _ _ | .malformedTernary _
  | .unexpectedToken _ => .parse
  | .unknownVariable _ | .unknownFunction _ | .notAVariable _ | .notAFunction _ => .resolution
  | .arityMismatch _ _ _ | .typeMismatch _ _ _ _ | .invalidArgument _ _
  | .nativeFailure _ => .call
  | .divisionByZero | .unsupportedOperation _ _ _ | .unsupportedUnaryOperation _ _
  | .domainError _ _ | .numberOutOfRange _ => .arithmetic
  | .alreadyDeclared _ => .declaration
  | .unknownDataType _ _ => .host

def message : Cause → String
  | .unexpectedCharacter c => "unexpected character '" ++ String.singleton c ++ "'"
  | .unterminatedString => "unterminated string"
  | .malformedNumber lexeme reason => "malformed number '" ++ lexeme ++ "': " ++ reason
  | .incompleteOperator c =>
    "incomplete operator '" ++ String.singleton c ++ "', expected '" ++
      String.ofList [c, c] ++ "'"
  | .expectedExpression found => "expected expression but found " ++ found
  | .missingClosingParen context found =>
    "expected ')' after " ++ context ++ " but found " ++ found
  | .malformedTernary found => "expected ':' in ternary expression but found " ++ found
  | .unexpectedToken found => "unexpected " ++ found ++ " after expression"
  | .unknownVariable name => "unknown variable '" ++ name ++ "'"
  | .unknownFunction name => "unknown function '" ++ name ++ "()'"
  | .notAVariable name => "'" ++ name ++ "' is not a variable"
  | .notAFunction name => "'" ++ name ++ "' is not a function"
  | .arityMismatch name expected got =>
    "function '" ++ name ++ "()' expects " ++ expected.describe ++ " but got " ++ toString got
  | .typeMismatch name position expected got =>
    "function '" ++ name ++ "()' expects " ++ expected.name ++ " for argument " ++
      toString position ++ " but got " ++ got.name
  | .invalidArgument name message => "invalid argument to '" ++ name ++ "()': " ++ message
  | .nativeFailure message => message
  | .divisionByZero => "division by zero"
  | .unsupportedOperation operator left right =>
    "'" ++ operator ++ "' operation between (" ++ left.name ++ ", " ++ right.name ++
      ") is not supported"
  | .unsupportedUnaryOperation operator operand =>
    "unary '" ++ operator ++ "' is not supported for " ++ operand.name
  | .domainError function message => function ++ ": " ++ message
  | .numberOutOfRange operation => operation ++ ": number is outside the supported range"
  | .alreadyDeclared name => "'" ++ name ++ "' is already declared"
  | .unknownDataType name found =>
    "cannot declare '" ++ name ++ "': unsupported data type " ++ found

end Cause

-- A cause, the place it points at, and a word of help. An error that does not come from a source
-- text points nowhere.
structure Error where
  cause : Cause
  span : Option Span
  help : Option String
deriving DecidableEq, Repr

namespace Error

def of (cause : Cause) : Error := ⟨cause, none, none⟩

def located (cause : Cause) (span : Span) : Error := ⟨cause, some span, none⟩

def withHelp (e : Error) (help : String) : Error := { e with help := some help }

def orSpan (e : Error) (span : Span) : Error := { e with span := some (e.span.getD span) }

def category (e : Error) : Category := e.cause.category

def message (e : Error) : String := e.cause.message

end Error

abbrev Result : Type → Type := Except (Stop Error)

namespace Stop

def of (cause : Cause) : Stop Error := failed (.of cause)

def located (cause : Cause) (span : Span) : Stop Error := failed (.located cause span)

def orSpan (stop : Stop Error) (span : Span) : Stop Error := stop.map fun e => e.orSpan span

end Stop

end Formula
