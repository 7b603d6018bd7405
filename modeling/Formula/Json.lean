import Formula.Environment

set_option autoImplicit false

namespace Formula

inductive Json where
  | null
  | boolean (value : Bool)
  | number (value : Decimal)
  | string (value : String)
  | array (items : List Json)
  | object (entries : List (String × Json))
deriving Repr, Inhabited

namespace Json

def putEntry (name : String) (json : Json) : List (String × Json) → List (String × Json)
  | [] => [(name, json)]
  | entry :: rest =>
    if Text.before name entry.1 then (name, json) :: entry :: rest
    else if entry.1 = name then (name, json) :: rest
    else entry :: putEntry name json rest

def ordered (entries : List (String × Json)) : List (String × Json) :=
  entries.foldl (fun sorted entry => putEntry entry.1 entry.2 sorted) []

def toValue (name : String) : Json → Result Value
  | number d => .ok (.number d)
  | string s => .ok (.text s)
  | boolean b => .ok (.boolean b)
  | null => .error (.of (.unknownDataType name "null"))
  | array _ => .error (.of (.unknownDataType name "array"))
  | object _ => .error (.of (.unknownDataType name "object"))

def declareEntry (env : Environment) (entry : String × Json) : Result Environment := do
  let value ← toValue entry.1 entry.2
  env.declareVariable entry.1 value

end Json

def Environment.declareJson (env : Environment) (entries : List (String × Json)) :
    Environment × Result Unit :=
  declareEach Json.declareEntry env (Json.ordered entries)

end Formula
