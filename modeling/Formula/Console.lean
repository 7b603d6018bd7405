import Formula.Evaluation
import Formula.Expr.Printer
import Formula.Token.Lexer

set_option autoImplicit false

namespace Formula

structure Output where
  out : String
  err : String
deriving DecidableEq, Repr, Inhabited

namespace Output

def none : Output := ⟨"", ""⟩

def line (s : String) : Output := ⟨s ++ "\n", ""⟩

def complaint (s : String) : Output := ⟨"", s ++ "\n"⟩

def append (first second : Output) : Output := ⟨first.out ++ second.out, first.err ++ second.err⟩

instance : Append Output := ⟨append⟩

def report (e : Error) : Output := complaint ("Error: " ++ e.category.title ++ ": " ++ e.message)

end Output

namespace Console

def title : String := "dexpr v0.1.0"

def hint : String := "Type ':help' for commands, 'exit' or Ctrl+D to quit"

def prompt : String := "> "

def help : String :=
  "Commands:\n" ++
  "  EXPR                 evaluate an expression\n" ++
  "  :let NAME = EXPR     evaluate EXPR and declare it as NAME\n" ++
  "  :ast EXPR            show the parsed tree of EXPR\n" ++
  "  :vars                list declared variables\n" ++
  "  :funcs               list declared functions\n" ++
  "  :help                show this message\n" ++
  "  exit, quit           leave the REPL"

inductive Command where
  | exit
  | help
  | listVariables
  | listFunctions
  | declare (name source : String)
  | tree (source : String)
  | evaluate (source : String)
deriving DecidableEq, Repr

inductive Misuse where
  | unknownCommand (keyword : String)
  | treeUsage
  | declareUsage
  | invalidName (name : String)
deriving DecidableEq, Repr

def Misuse.message : Misuse → String
  | .unknownCommand keyword => "unknown command ':" ++ keyword ++ "', try ':help'"
  | .treeUsage => "usage: :ast EXPR"
  | .declareUsage => "usage: :let NAME = EXPR"
  | .invalidName name => "'" ++ name ++ "' is not a valid name"

def isName : List Char → Bool
  | [] => false
  | c :: cs => Lexer.isNameStart c && cs.all Lexer.isNamePart

def readDeclaration (argument : List Char) : Except Misuse Command :=
  match argument.dropWhile (· != '=') with
  | [] => .error .declareUsage
  | _ :: behind =>
    let name := Text.trim (argument.takeWhile (· != '='))
    let source := Text.trim behind
    if !isName name then .error (.invalidName (String.ofList name))
    else if source = [] then .error .declareUsage
    else .ok (.declare (String.ofList name) (String.ofList source))

def readKeyword (keyword argument : List Char) : Except Misuse Command :=
  let word := String.ofList keyword
  if word = "help" then .ok .help
  else if word = "vars" then .ok .listVariables
  else if word = "funcs" then .ok .listFunctions
  else if word = "ast" then
    if argument = [] then .error .treeUsage else .ok (.tree (String.ofList argument))
  else if word = "let" then readDeclaration argument
  else .error (.unknownCommand word)

def read (line : List Char) : Except Misuse Command :=
  match line with
  | ':' :: rest =>
    readKeyword (rest.takeWhile (!Text.isBlank ·)) (Text.trim (rest.dropWhile (!Text.isBlank ·)))
  | _ =>
    let text := String.ofList line
    if text = "exit" ∨ text = "quit" then .ok .exit else .ok (.evaluate text)

inductive Ending where
  | going
  | over
  | panicked
deriving DecidableEq, Repr

structure Reply where
  env : Environment
  output : Output
  ending : Ending

namespace Reply

def print (env : Environment) : Result String → Reply
  | .ok s => ⟨env, .line s, .going⟩
  | .error (.failed e) => ⟨env, .report e, .going⟩
  | .error .panicked => ⟨env, .none, .panicked⟩

def printEach (env : Environment) : List (Result String) → Reply
  | [] => ⟨env, .none, .going⟩
  | result :: results =>
    let first := print env result
    match first.ending with
    | .going =>
      let rest := printEach env results
      ⟨env, first.output ++ rest.output, rest.ending⟩
    | _ => first

end Reply

def shown (source : String) (env : Environment) : Result String := do
  let value ← Formula.evaluate source env
  value.write

def declare (env : Environment) (name source : String) : Result (Environment × Value) := do
  let value ← Formula.evaluate source env
  let env ← env.declareVariable name value
  pure (env, value)

def execute (env : Environment) : Command → Reply
  | .exit => ⟨env, .line "Goodbye!", .over⟩
  | .help => ⟨env, .line help, .going⟩
  | .listVariables =>
    .printEach env (env.allVariables.map fun entry =>
      entry.2.write.map fun s => entry.1 ++ " = " ++ s)
  | .listFunctions => .printEach env (env.allFunctions.map fun f => .ok f.signature)
  | .tree source => .print env ((parse source).map Expr.print)
  | .evaluate source => .print env (shown source env)
  | .declare name source =>
    match declare env name source with
    | .ok (env, value) => .print env (value.write.map fun s => name ++ " = " ++ s)
    | .error stop => .print env (.error stop)

def answer (env : Environment) (line : List Char) : Reply :=
  let line := Text.trim line
  if line = [] then ⟨env, .none, .going⟩
  else
    match read line with
    | .ok command => execute env command
    | .error misuse => ⟨env, .complaint misuse.message, .going⟩

-- One turn of a session: the line that is read behind the prompt, or what the system says where
-- the prompt cannot be written or no line can be read.
inductive Turn where
  | line (text : List Char)
  | unwritable (reason : String)
  | unreadable (reason : String)

def Turn.prompted : Turn → Output
  | .unwritable _ => .none
  | _ => ⟨prompt, ""⟩

def take (env : Environment) : Turn → Reply
  | .line text => answer env text
  | .unwritable reason => ⟨env, .complaint ("Error writing prompt: " ++ reason), .over⟩
  | .unreadable reason => ⟨env, .complaint ("Error reading input: " ++ reason), .over⟩

def run (env : Environment) : List Turn → Reply
  | [] => ⟨env, ⟨prompt ++ "\n", ""⟩, .over⟩
  | turn :: turns =>
    let reply := take env turn
    let output := turn.prompted ++ reply.output
    match reply.ending with
    | .going =>
      let rest := run reply.env turns
      { rest with output := output ++ rest.output }
    | ending => ⟨reply.env, output, ending⟩

def banner : String := title ++ "\n" ++ hint ++ "\n\n"

def lines : List Char → List (List Char)
  | [] => []
  | c :: cs =>
    if c = '\n' then [] :: lines cs
    else
      match lines cs with
      | [] => [[c]]
      | line :: rest => (c :: line) :: rest

end Console

end Formula
