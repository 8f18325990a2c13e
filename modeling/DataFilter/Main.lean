import DataFilter.CommandLine

/-!
# The program

Reads what a run needs, answers, and writes the answer.
-/

namespace DataFilter

open CommandLine in
/-- Carries out a request, reading its schema file and the standard input where it asks for them. -/
def carryOut (request : Request) : IO Response := do
  try
    let schema ← request.schemaPath.mapM fun path => IO.FS.readFile path
    let stdin ← IO.getStdin
    let input ←
      if request.readsInput && !(← stdin.isTty) then some <$> stdin.readToEnd else pure none
    return respond request.pretty (request.supply input schema)
  catch
    | .noFileOrDirectory .. => return failed (fileMessage FileFault.missing.message)
    | .inappropriateType _ 20 _ => return failed (fileMessage FileFault.notFolder.message)
    | .inappropriateType _ 21 _ => return failed (fileMessage FileFault.isFolder.message)
    | e => return failed (fileMessage e.toString)

end DataFilter

open DataFilter CommandLine in
def main (arguments : List String) : IO UInt32 := do
  let response ← match request arguments with
    | .ok request => carryOut request
    | .error stop => pure stop.response
  (← IO.getStdout).putStr response.output
  (← IO.getStderr).putStr response.errors
  return response.code.toUInt32
