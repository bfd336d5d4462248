import Postal.CommandLine.Run

/-!
# The program

Reads the arguments, the environment and the files that the invocation names,
and prints its outcome. Everything that is decided is decided in
`Postal.CommandLine.Run`.
-/

set_option autoImplicit false

namespace Postal

def readFile (path : Text) : IO (Option Text) := do
  try
    let content ← IO.FS.readFile (String.ofList path)
    return some content.toList
  catch _ => return none

def readFiles (paths : List Text) : IO (List (Text × Option Text)) :=
  paths.mapM fun path => do return (path, ← readFile path)

def contentOf (read : List (Text × Option Text)) (path : Text) : Option Text :=
  (read.lookup path).join

def report (o : Outcome) : IO Unit := do
  match o with
  | .usageError => IO.eprintln "usage: addrfmt [OPTIONS] <format|fields|key> ..."
  | .finished _ output errors =>
    IO.print (String.ofList output)
    IO.eprint (String.ofList errors)
  | .reported (.help command) => IO.println (String.ofList (Report.help command).message)
  | .reported r => IO.eprintln (String.ofList r.message)

end Postal

def main (arguments : List String) : IO UInt32 := do
  let texts := arguments.map String.toList
  let environment := (← IO.getEnv "ADDRFMT_REGION_DATA").map String.toList
  let paths := (Postal.Invocation.read environment texts).toOption.map Postal.Invocation.paths
  let files ← Postal.readFiles (paths.getD [])
  let outcome := Postal.outcome environment texts (Postal.contentOf files)
  Postal.report outcome
  return UInt32.ofNat outcome.status
