set_option autoImplicit false

namespace Formula.CommandLine

structure Options where
  expression : Option String
  file : Option String
  interactive : Bool
  assignments : List String
  hostData : Option String
  withoutDefaults : Bool
deriving DecidableEq, Repr, Inhabited

inductive Request where
  | run (options : Options)
  | help
  | version
  | misuse
deriving DecidableEq, Repr

inductive Valued where
  | file
  | assignment
  | hostData
deriving DecidableEq, Repr

inductive Flag where
  | interactive
  | withoutDefaults
  | help
  | version
deriving DecidableEq, Repr

inductive Meaning where
  | valued (option : Valued)
  | flag (option : Flag)
deriving DecidableEq, Repr

def ofLong (name : String) : Option Meaning :=
  if name = "file" then some (.valued .file)
  else if name = "var" then some (.valued .assignment)
  else if name = "vars-json" then some (.valued .hostData)
  else if name = "interactive" then some (.flag .interactive)
  else if name = "no-defaults" then some (.flag .withoutDefaults)
  else if name = "help" then some (.flag .help)
  else if name = "version" then some (.flag .version)
  else none

def ofShort : Char → Option Meaning
  | 'f' => some (.valued .file)
  | 'i' => some (.flag .interactive)
  | 'h' => some (.flag .help)
  | 'V' => some (.flag .version)
  | _ => none

def Options.set (o : Options) (option : Valued) (value : String) : Option Options :=
  match option with
  | .file => if o.file.isSome then none else some { o with file := some value }
  | .hostData => if o.hostData.isSome then none else some { o with hostData := some value }
  | .assignment => some { o with assignments := o.assignments ++ [value] }

def Options.setExpression (o : Options) (value : String) : Option Options :=
  if o.expression.isSome then none else some { o with expression := some value }

def isPlain (arg : String) : Bool := arg == "-" || arg.toList.head? != some '-'

def Options.raise (o : Options) : Flag → Request ⊕ Options
  | .help => .inl .help
  | .version => .inl .version
  | .interactive => if o.interactive then .inl .misuse else .inr { o with interactive := true }
  | .withoutDefaults =>
    if o.withoutDefaults then .inl .misuse else .inr { o with withoutDefaults := true }

inductive Open where
  | nothing
  | value (option : Valued)
deriving DecidableEq, Repr

def readShort (o : Options) : List Char → Request ⊕ (Options × Open)
  | [] => .inr (o, .nothing)
  | c :: cs =>
    match ofShort c with
    | none => .inl .misuse
    | some (.flag flag) =>
      match o.raise flag with
      | .inl request => .inl request
      | .inr o => readShort o cs
    | some (.valued option) =>
      match cs with
      | [] => .inr (o, .value option)
      | '=' :: value => attach option value
      | value => attach option value
where
  attach (option : Valued) (value : List Char) : Request ⊕ (Options × Open) :=
    match o.set option (String.ofList value) with
    | some o => .inr (o, .nothing)
    | none => .inl .misuse

def readLong (o : Options) (cs : List Char) : Request ⊕ (Options × Open) :=
  let name := String.ofList (cs.takeWhile (· != '='))
  match ofLong name, cs.dropWhile (· != '=') with
  | none, _ => .inl .misuse
  | some (.flag _), _ :: _ => .inl .misuse
  | some (.flag flag), [] =>
    match o.raise flag with
    | .inl request => .inl request
    | .inr o => .inr (o, .nothing)
  | some (.valued option), [] => .inr (o, .value option)
  | some (.valued option), _ :: value =>
    match o.set option (String.ofList value) with
    | some o => .inr (o, .nothing)
    | none => .inl .misuse

def readPlain (o : Options) : List String → Request
  | [] => if o.expression.isSome && o.file.isSome then .misuse else .run o
  | arg :: args =>
    match o.setExpression arg with
    | some o => readPlain o args
    | none => .misuse

def readArgs (o : Options) : Open → List String → Request
  | .value _, [] => .misuse
  | .value option, arg :: args =>
    if isPlain arg then
      match o.set option arg with
      | some o => readArgs o .nothing args
      | none => .misuse
    else .misuse
  | .nothing, [] => readPlain o []
  | .nothing, arg :: args =>
    if isPlain arg then
      match o.setExpression arg with
      | some o => readArgs o .nothing args
      | none => .misuse
    else if arg = "--" then readPlain o args
    else
      let step :=
        match arg.toList with
        | '-' :: '-' :: cs => readLong o cs
        | cs => readShort o cs.tail
      match step with
      | .inl request => request
      | .inr (o, opened) => readArgs o opened args

def request (args : List String) : Request :=
  readArgs ⟨none, none, false, [], none, false⟩ .nothing args

end Formula.CommandLine
