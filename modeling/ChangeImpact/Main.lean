/-
This file is the program on the command line.
-/

import ChangeImpact.CommandLine.Run

open ChangeImpact

/-- What is found at a path. -/
def readFile (path : String) : IO (Except FileError ByteArray) := do
  try
    return .ok (← IO.FS.readBinFile path)
  catch error => return .error <| match error with
    | .noFileOrDirectory _ _ _ => .notFound
    | .inappropriateType _ _ _ => .isDirectory
    | error => .other (toString error)

def main (arguments : List String) : IO UInt32 := do
  let request := CommandLine.Request.ofArguments arguments
  let inputs := match request with
    | .invoke invocation => invocation.inputs
    | _ => []
  let contents ← inputs.mapM fun path => return (path, ← readFile path)
  let files (path : String) : Except FileError ByteArray :=
    (contents.lookup path).getD (.error .notFound)
  let painted := (← IO.getEnv "CLICOLOR_FORCE").any (· != "0")
  let display : CommandLine.Display := ⟨if painted then .painted else .plain, 80⟩
  let outcome := CommandLine.Outcome.ofRequest display files .epoch request
  IO.print outcome.output
  for line in outcome.errorLines display do
    IO.eprintln line
  if outcome.status = 2 then
    IO.eprintln (CommandLine.Help.ofProgram CommandLine.program)
  return outcome.status.toUInt32
