import Formula.Token.Lexer

set_option autoImplicit false

namespace Formula

inductive TokenType where
  | plus
  | minus
  | star
  | slash
  | caret
  | percent
  | leftParen
  | rightParen
  | comma
  | question
  | colon
  | bang
  | bangEqual
  | equalEqual
  | greater
  | greaterEqual
  | less
  | lessEqual
  | and
  | or
  | number
  | string
  | boolean
  | identifier
  | eof
deriving DecidableEq, Repr

def Terminal.type : Terminal → TokenType
  | .plus => .plus
  | .minus => .minus
  | .star => .star
  | .slash => .slash
  | .caret => .caret
  | .percent => .percent
  | .leftParen => .leftParen
  | .rightParen => .rightParen
  | .comma => .comma
  | .question => .question
  | .colon => .colon
  | .bang => .bang
  | .bangEqual => .bangEqual
  | .equalEqual => .equalEqual
  | .greater => .greater
  | .greaterEqual => .greaterEqual
  | .less => .less
  | .lessEqual => .lessEqual
  | .and => .and
  | .or => .or
  | .number _ => .number
  | .string _ => .string
  | .boolean _ => .boolean
  | .identifier _ => .identifier
  | .eof => .eof

structure RawToken where
  type : TokenType
  literal : Option Value
  lexeme : String
  column : Nat
  span : Span
deriving DecidableEq, Repr

namespace RawToken

def isEof (t : RawToken) : Bool := t.type == .eof

def describe (t : RawToken) : String := if t.isEof then "EOF" else "'" ++ t.lexeme ++ "'"

end RawToken

def Token.raw (t : Token) : RawToken :=
  ⟨t.terminal.type, t.terminal.literal?, t.lexeme, t.column, t.span⟩

def utf8 (cs : List Char) : List UInt8 := cs.flatMap String.utf8EncodeChar

def splitBytes : Nat → List Char → Option (List Char × List Char)
  | 0, cs => some ([], cs)
  | _ + 1, [] => none
  | n + 1, c :: cs =>
    if c.utf8Size ≤ n + 1 then
      (splitBytes (n + 1 - c.utf8Size) cs).map fun (front, back) => (c :: front, back)
    else none

structure Scanner where
  source : String
  start : Nat
  current : Nat

namespace Scanner

open Lexer (isLayout isNameStart isNamePart malformation)

def ofSource (source : String) : Scanner := ⟨source, 0, 0⟩

def isAtEnd (s : Scanner) : Bool := decide (s.source.utf8ByteSize ≤ s.current)

def peek (s : Scanner) : Char := Char.ofUInt8 ((utf8 s.source.toList)[s.current]?.getD 0)

def advance (s : Scanner) : Scanner := { s with current := s.current + 1 }

def passWhile (p : Char → Bool) (s : Scanner) : Scanner :=
  if s.isAtEnd then s
  else if p s.peek then s.advance.passWhile p
  else s
termination_by s.source.utf8ByteSize - s.current
decreasing_by
  rename_i more _
  simp only [isAtEnd, decide_eq_true_eq] at more
  simp only [advance]
  omega

def matchByte (expected : Char) (s : Scanner) : Bool × Scanner :=
  if s.isAtEnd || s.peek != expected then (false, s) else (true, s.advance)

def slice (s : Scanner) (start stop : Nat) : Result String :=
  match (splitBytes stop s.source.toList).bind fun (front, _) => splitBytes start front with
  | some (_, text) => .ok (String.ofList text)
  | none => .error .panicked

def lexeme (s : Scanner) : Result String := s.slice s.start s.current

def span (s : Scanner) : Span := ⟨s.start, s.current⟩

def makeToken (s : Scanner) (type : TokenType) (literal : Option Value) : Result RawToken :=
  s.lexeme.map fun lexeme => ⟨type, literal, lexeme, s.current, s.span⟩

def plain (type : TokenType) (s : Scanner) : Result RawToken × Scanner := (s.makeToken type none, s)

def withEqual (short long : TokenType) (s : Scanner) : Result RawToken × Scanner :=
  let (found, s) := s.matchByte '='
  s.plain (if found then long else short)

def doubled (operator : Char) (type : TokenType) (s : Scanner) : Result RawToken × Scanner :=
  let (found, s) := s.matchByte operator
  if found then s.plain type else (.error (.located (.incompleteOperator operator) s.span), s)

def string (quote : Char) (s : Scanner) : Result RawToken × Scanner :=
  let s := s.passWhile (· != quote)
  if s.isAtEnd then
    (.error (.failed ((Error.located .unterminatedString s.span).withHelp
      ("close the string with " ++ String.singleton quote))), s)
  else
    let s := s.advance
    (do
      let content ← s.slice (s.start + 1) (s.current - 1)
      s.makeToken .string (some (.text content)), s)

def digits (s : Scanner) : Scanner := s.passWhile Char.isDigit

def malformed (fault : NumberFault) (s : Scanner) : Result RawToken := do
  let lexeme ← s.lexeme
  .error (.located (malformation lexeme fault).cause s.span)

def numeral (s : Scanner) : Result RawToken × Scanner :=
  (do
    let lexeme ← s.lexeme
    match Decimal.read lexeme.toList with
    | .error fault => s.malformed (.unreadable fault)
    | .ok d =>
      d.byRange (s.makeToken .number (some (.number d))) (s.malformed .outOfRange), s)

def exponent (s : Scanner) : Result RawToken × Scanner :=
  if Decimal.isExponentMark s.peek then
    let s := s.advance
    let (negative, s) := s.matchByte '-'
    let s := if negative then s else (s.matchByte '+').2
    if s.peek.isDigit then s.digits.numeral else (s.malformed .noDigitInExponent, s)
  else s.numeral

def number (s : Scanner) : Result RawToken × Scanner :=
  let s := s.digits
  let (pointed, s) := s.matchByte '.'
  if pointed then
    if s.peek.isDigit then s.digits.exponent else (s.malformed .noDigitAfterPoint, s)
  else s.exponent

def identifier (s : Scanner) : Result RawToken × Scanner :=
  let s := s.passWhile isNamePart
  (do
    let word ← s.lexeme
    if word = "true" then s.makeToken .boolean (some (.boolean true))
    else if word = "false" then s.makeToken .boolean (some (.boolean false))
    else s.makeToken .identifier none, s)

def unexpected (s : Scanner) : Result RawToken × Scanner :=
  match splitBytes s.start s.source.toList with
  | some (_, rest) =>
    let c := rest.head?.getD '\x00'
    let s := { s with current := s.start + c.utf8Size }
    (.error (.located (.unexpectedCharacter c) s.span), s)
  | none => (.error .panicked, s)

def scanToken (s : Scanner) : Result RawToken × Scanner :=
  let c := s.peek
  let s := s.advance
  match c with
  | '+' => s.plain .plus
  | '-' => s.plain .minus
  | '*' => s.plain .star
  | '/' => s.plain .slash
  | '^' => s.plain .caret
  | '%' => s.plain .percent
  | '(' => s.plain .leftParen
  | ')' => s.plain .rightParen
  | ',' => s.plain .comma
  | '?' => s.plain .question
  | ':' => s.plain .colon
  | '!' => s.withEqual .bang .bangEqual
  | '>' => s.withEqual .greater .greaterEqual
  | '<' => s.withEqual .less .lessEqual
  | '=' => s.doubled '=' .equalEqual
  | '&' => s.doubled '&' .and
  | '|' => s.doubled '|' .or
  | '"' => s.string '"'
  | '\'' => s.string '\''
  | _ =>
    if c.isDigit then s.number
    else if isNameStart c then s.identifier
    else s.unexpected

def next (s : Scanner) : Result RawToken × Scanner :=
  let s := s.passWhile isLayout
  let s := { s with start := s.current }
  if s.isAtEnd then s.plain .eof else s.scanToken

def calls (s : Scanner) : Nat → List (Result RawToken)
  | 0 => []
  | n + 1 => s.next.1 :: s.next.2.calls n

def after (s : Scanner) : Nat → Scanner
  | 0 => s
  | n + 1 => s.next.2.after n

def call (s : Scanner) (n : Nat) : Result RawToken := (s.after n).next.1

end Scanner

end Formula
