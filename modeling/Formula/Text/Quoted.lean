import Formula.Text.GraphemeExtend
import Formula.Text.Unprintable

set_option autoImplicit false

namespace Formula.Text

def hexDigits : Nat → Nat → List Char
  | 0, _ => []
  | fuel + 1, n =>
    let digit := n % 16
    let c := Char.ofNat (if digit < 10 then 48 + digit else 87 + digit)
    if n < 16 then [c] else hexDigits fuel (n / 16) ++ [c]

def numbered (c : Char) : List Char :=
  ['\\', 'u', '\x7b'] ++ hexDigits 6 c.toNat ++ ['\x7d']

def escape (c : Char) : List Char :=
  if c.toNat = 0 then ['\\', '0']
  else if c = '\t' then ['\\', 't']
  else if c = '\r' then ['\\', 'r']
  else if c = '\n' then ['\\', 'n']
  else if c = '"' then ['\\', '"']
  else if c = '\\' then ['\\', '\\']
  else if isGraphemeExtend c || isUnprintable c then numbered c
  else [c]

def quote (text : String) : String :=
  String.ofList ('"' :: text.toList.flatMap escape ++ ['"'])

end Formula.Text
