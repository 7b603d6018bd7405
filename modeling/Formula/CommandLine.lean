import Formula.Catalogue
import Formula.CommandLine.Options
import Formula.Console
import Formula.Json.Reader

set_option autoImplicit false

namespace Formula.CommandLine

inductive FileContent where
  | text (content : String)
  | missing
  | unreadable (reason : String)
deriving DecidableEq, Repr

structure Outcome where
  output : Output
  exit : Nat
deriving DecidableEq, Repr

-- The exit code of a panic. What the runtime then writes on standard error is left out.
def panicExit : Nat := 101

def version : String := "dexpr 0.1.0"

def help : String :=
  "Evaluate expressions with exact decimal arithmetic\n\n" ++
  "Usage: dexpr [OPTIONS] [EXPRESSION]\n\n" ++
  "Arguments:\n" ++
  "  [EXPRESSION]  The expression to evaluate\n\n" ++
  "Options:\n" ++
  "  -f, --file <FILE>       Read the expression from a file\n" ++
  "  -i, --interactive       Start in interactive REPL mode\n" ++
  "      --var <NAME=VALUE>  Declare a variable; VALUE is a number, true/false, or text\n" ++
  "      --vars-json <FILE>  Declare variables from a JSON object file\n" ++
  "      --no-defaults       Start without the default functions and constants\n" ++
  "  -h, --help              Print help\n" ++
  "  -V, --version           Print version"

def assignedValue (text : String) : Value :=
  match Decimal.ofText? text with
  | some d => .number d
  | none =>
    if text = "true" then .boolean true
    else if text = "false" then .boolean false
    else .text text

def assign (env : Environment) (assignment : String) : Except (Stop String) Environment :=
  let cs := assignment.toList
  match cs.dropWhile (· != '=') with
  | [] => .error (.failed ("--var expects NAME=VALUE, got '" ++ assignment ++ "'"))
  | _ :: value =>
    let name := String.ofList (Text.trim (cs.takeWhile (· != '=')))
    (env.declareVariable name (assignedValue (String.ofList value))).mapError fun stop =>
      stop.map fun e => "--var " ++ name ++ ": " ++ e.message

def loadHostData (read : String → FileContent) (env : Environment) (path : String) :
    Except (Stop String) Environment :=
  match read path with
  | .missing =>
    .error (.failed ("reading '" ++ path ++ "': No such file or directory (os error 2)"))
  | .unreadable reason => .error (.failed ("reading '" ++ path ++ "': " ++ reason))
  | .text content =>
    match Json.read? content with
    | some (.object entries) =>
      match env.declareJson entries with
      | (env, .ok ()) => .ok env
      | (_, .error stop) => .error (stop.map fun e => "'" ++ path ++ "': " ++ e.message)
    | _ => .error (.failed ("'" ++ path ++ "' is not a JSON object"))

def environment (read : String → FileContent) (o : Options) :
    Except (Stop String) Environment := do
  let env := if o.withoutDefaults then Environment.empty else Catalogue.environment
  let env ←
    match o.hostData with
    | some path => loadHostData read env path
    | none => pure env
  o.assignments.foldlM assign env

def evaluateOnce (env : Environment) (source : String) : Outcome :=
  match Console.shown (String.ofList (Text.trimEnd source.toList)) env with
  | .ok s => ⟨.line s, 0⟩
  | .error (.failed e) => ⟨.report e, 1⟩
  | .error .panicked => ⟨.none, panicExit⟩

def given (read : String → FileContent) (o : Options) : Except String (Option String) :=
  match o.expression, o.file with
  | some source, _ => .ok (some source)
  | none, none => .ok none
  | none, some path =>
    match read path with
    | .text content => .ok (some content)
    | .missing => .error ("Error: File '" ++ path ++ "' not found")
    | .unreadable reason => .error ("Error reading file '" ++ path ++ "': " ++ reason)

inductive Start where
  | over (outcome : Outcome)
  | console (env : Environment) (output : Output)

def startWith (read : String → FileContent) (o : Options) : Start :=
  match environment read o with
  | .error (.failed message) => .over ⟨.complaint ("Error: " ++ message), 1⟩
  | .error .panicked => .over ⟨.none, panicExit⟩
  | .ok env =>
    match given read o with
    | .error message => .over ⟨.complaint message, 1⟩
    | .ok none => .console env .none
    | .ok (some source) =>
      let outcome := evaluateOnce env source
      if o.interactive && outcome.exit != panicExit then .console env outcome.output
      else .over outcome

def start (read : String → FileContent) : Request → Start
  | .help => .over ⟨.line help, 0⟩
  | .version => .over ⟨.line version, 0⟩
  | .misuse => .over ⟨.none, 2⟩
  | .run o => startWith read o

def exitOf : Console.Ending → Nat
  | .panicked => panicExit
  | _ => 0

def run (args : List String) (read : String → FileContent) (turns : List Console.Turn) :
    Outcome :=
  match start read (request args) with
  | .over outcome => outcome
  | .console env output =>
    let session := Console.run env turns
    ⟨output ++ ⟨Console.banner, ""⟩ ++ session.output, exitOf session.ending⟩

end Formula.CommandLine
