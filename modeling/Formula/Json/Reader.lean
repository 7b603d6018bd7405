import Formula.Json
import Formula.Json.Number

set_option autoImplicit false

namespace Formula.Json.Reader

def isLayout (c : Char) : Bool := c == ' ' || c == '\n' || c == '\t' || c == '\r'

def skip (cs : List Char) : List Char := cs.dropWhile isLayout

def hexValue? (c : Char) : Option Nat :=
  if c.isDigit then some (c.toNat - 48)
  else if 'a'.toNat ≤ c.toNat ∧ c.toNat ≤ 'f'.toNat then some (c.toNat - 87)
  else if 'A'.toNat ≤ c.toNat ∧ c.toNat ≤ 'F'.toNat then some (c.toNat - 55)
  else none

def readUnit : List Char → Option (Nat × List Char)
  | a :: b :: c :: d :: rest => do
    let a ← hexValue? a
    let b ← hexValue? b
    let c ← hexValue? c
    let d ← hexValue? d
    pure (((a * 16 + b) * 16 + c) * 16 + d, rest)
  | _ => none

-- The character behind the mark of an escape by number. A character past the first 65536 is written
-- as two units, a high and a low surrogate; neither may stand alone.
def readNumbered (cs : List Char) : Option (Char × List Char) := do
  let (unit, rest) ← readUnit cs
  if 0xD800 ≤ unit ∧ unit < 0xDC00 then
    match rest with
    | '\\' :: 'u' :: rest => do
      let (low, rest) ← readUnit rest
      if 0xDC00 ≤ low ∧ low < 0xE000 then
        pure (Char.ofNat (0x10000 + (unit - 0xD800) * 0x400 + (low - 0xDC00)), rest)
      else none
    | _ => none
  else if 0xDC00 ≤ unit ∧ unit < 0xE000 then none
  else pure (Char.ofNat unit, rest)

def readString : Nat → List Char → Option (List Char × List Char)
  | 0, _ => none
  | _, [] => none
  | _, '"' :: rest => some ([], rest)
  | fuel + 1, '\\' :: mark :: rest => do
    let (c, rest) ←
      match mark with
      | '"' => some ('"', rest)
      | '\\' => some ('\\', rest)
      | '/' => some ('/', rest)
      | 'b' => some ('\x08', rest)
      | 'f' => some ('\x0c', rest)
      | 'n' => some ('\n', rest)
      | 'r' => some ('\r', rest)
      | 't' => some ('\t', rest)
      | 'u' => readNumbered rest
      | _ => none
    let (cs, rest) ← readString fuel rest
    pure (c :: cs, rest)
  | fuel + 1, c :: rest =>
    if c.toNat < 0x20 || c == '\\' then none
    else do
      let (cs, rest) ← readString fuel rest
      pure (c :: cs, rest)

def readExponent : List Char → Option (Option Int × List Char)
  | mark :: cs =>
    if mark = 'e' ∨ mark = 'E' then
      let (negative, cs) :=
        match cs with
        | '-' :: cs => (true, cs)
        | '+' :: cs => (false, cs)
        | cs => (false, cs)
      let digits := cs.takeWhile Char.isDigit
      if digits = [] then none
      else
        let magnitude : Int := Digits.toNat digits
        some (some (if negative then -magnitude else magnitude), cs.dropWhile Char.isDigit)
    else some (none, mark :: cs)
  | [] => some (none, [])

def readPlaces : List Char → Option (Option (List Char) × List Char)
  | '.' :: cs =>
    let digits := cs.takeWhile Char.isDigit
    if digits = [] then none else some (some digits, cs.dropWhile Char.isDigit)
  | cs => some (none, cs)

def readNumber (negative : Bool) (cs : List Char) : Option (Json × List Char) := do
  let whole := cs.takeWhile Char.isDigit
  if whole = [] ∨ (whole.head? = some '0' ∧ whole ≠ ['0']) then none
  else do
    let (places, rest) ← readPlaces (cs.dropWhile Char.isDigit)
    let (exponent, rest) ← readExponent rest
    let d ← Literal.value? ⟨negative, whole, places, exponent⟩
    pure (number d, rest)

def readWord (word : List Char) (json : Json) (cs : List Char) : Option (Json × List Char) :=
  if word.isPrefixOf cs then some (json, cs.drop word.length) else none

mutual

def readValue : Nat → Nat → List Char → Option (Json × List Char)
  | 0, _, _ => none
  | fuel + 1, depth, cs =>
    match skip cs with
    | '"' :: rest => (readString (rest.length + 1) rest).map fun (s, rest) =>
        (string (String.ofList s), rest)
    | '[' :: rest =>
      if depth ≤ 1 then none
      else
        match skip rest with
        | ']' :: rest => some (array [], rest)
        | rest => (readItems fuel (depth - 1) rest).map fun (items, rest) => (array items, rest)
    | '\x7b' :: rest =>
      if depth ≤ 1 then none
      else
        match skip rest with
        | '\x7d' :: rest => some (object [], rest)
        | rest =>
          (readEntries fuel (depth - 1) rest).map fun (entries, rest) => (object entries, rest)
    | '-' :: rest => readNumber true rest
    | 't' :: rest => readWord ['r', 'u', 'e'] (boolean true) rest
    | 'f' :: rest => readWord ['a', 'l', 's', 'e'] (boolean false) rest
    | 'n' :: rest => readWord ['u', 'l', 'l'] null rest
    | rest => readNumber false rest

def readItems : Nat → Nat → List Char → Option (List Json × List Char)
  | 0, _, _ => none
  | fuel + 1, depth, cs => do
    let (item, rest) ← readValue fuel depth cs
    match skip rest with
    | ',' :: rest => do
      let (items, rest) ← readItems fuel depth rest
      pure (item :: items, rest)
    | ']' :: rest => pure ([item], rest)
    | _ => none

def readEntries : Nat → Nat → List Char → Option (List (String × Json) × List Char)
  | 0, _, _ => none
  | fuel + 1, depth, cs =>
    match skip cs with
    | '"' :: rest => do
      let (name, rest) ← readString (rest.length + 1) rest
      match skip rest with
      | ':' :: rest => do
        let (json, rest) ← readValue fuel depth rest
        let entry := (String.ofList name, json)
        match skip rest with
        | ',' :: rest => do
          let (entries, rest) ← readEntries fuel depth rest
          pure (entry :: entries, rest)
        | '\x7d' :: rest => pure ([entry], rest)
        | _ => none
      | _ => none
    | _ => none

end

end Reader

def read? (text : String) : Option Json :=
  let cs := text.toList
  match Reader.readValue (2 * cs.length + 2) 128 cs with
  | some (json, rest) => if Reader.skip rest = [] then some json else none
  | none => none

end Formula.Json
