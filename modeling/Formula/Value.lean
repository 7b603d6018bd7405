import Formula.Decimal.Text

set_option autoImplicit false

namespace Formula

inductive Value where
  | number (value : Decimal)
  | text (value : String)
  | boolean (value : Bool)
deriving DecidableEq, Repr, Inhabited

inductive Kind where
  | number
  | string
  | boolean
  | any
deriving DecidableEq, Repr, Inhabited

def Kind.name : Kind → String
  | .number => "number"
  | .string => "string"
  | .boolean => "boolean"
  | .any => "any"

namespace Value

def kind : Value → Kind
  | .number _ => .number
  | .text _ => .string
  | .boolean _ => .boolean

def display : Value → String
  | .number d => d.text
  | .text s => s
  | .boolean true => "true"
  | .boolean false => "false"

def write {ε : Type} : Value → Except (Stop ε) String
  | .number d => d.write
  | v => .ok v.display

def isTruthy : Value → Bool
  | .number _ => true
  | .text s => !s.isEmpty
  | .boolean b => b

def number? : Value → Option Decimal
  | .number d => some d
  | _ => none

def text? : Value → Option String
  | .text s => some s
  | _ => none

def boolean? : Value → Option Bool
  | .boolean b => some b
  | _ => none

def same : Value → Value → Bool
  | .number a, .number b => a.sameNumber b
  | .text a, .text b => a == b
  | .boolean a, .boolean b => a == b
  | _, _ => false

end Value

def Kind.accepts (kind : Kind) (value : Value) : Bool :=
  kind == .any || kind == value.kind

end Formula
