import Formula.CommandLine

set_option autoImplicit false

namespace Formula.Program

def readFile (path : String) : IO CommandLine.FileContent := do
  try
    let content ← IO.FS.readFile path
    pure (.text content)
  catch
    | .noFileOrDirectory _ _ _ => pure .missing
    | e => pure (.unreadable (toString e))

def write (output : Output) : IO Unit := do
  IO.print output.out
  IO.eprint output.err
  (← IO.getStdout).flush

def nextLine (input : IO.FS.Stream) : IO (Option Console.Turn) := do
  try
    let line ← input.getLine
    pure (if line.isEmpty then none else some (.line line.toList))
  catch e => pure (some (.unreadable (toString e)))

def nextTurn (input : IO.FS.Stream) : IO (Option Console.Turn) := do
  let failure ←
    try
      write ⟨Console.prompt, ""⟩
      pure none
    catch e => pure (some (toString e))
  match failure with
  | some reason => pure (some (.unwritable reason))
  | none => nextLine input

partial def converse (input : IO.FS.Stream) (env : Environment) : IO Console.Ending := do
  match ← nextTurn input with
  | none =>
    write ⟨"\n", ""⟩
    pure .over
  | some turn =>
    let reply := Console.take env turn
    write reply.output
    match reply.ending with
    | .going => converse input reply.env
    | ending => pure ending

def run (args : List String) : IO UInt32 := do
  let request := CommandLine.request args
  let paths :=
    match request with
    | .run o => o.hostData.toList ++ o.file.toList
    | _ => []
  let contents ← paths.mapM fun path => do
    let content ← readFile path
    pure (path, content)
  let read (path : String) : CommandLine.FileContent := (contents.lookup path).getD .missing
  match CommandLine.start read request with
  | .over outcome =>
    write outcome.output
    pure outcome.exit.toUInt32
  | .console env output =>
    write (output ++ ⟨Console.banner, ""⟩)
    let ending ← converse (← IO.getStdin) env
    pure (CommandLine.exitOf ending).toUInt32

end Formula.Program

def main (args : List String) : IO UInt32 := Formula.Program.run args
