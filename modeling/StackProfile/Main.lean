import StackProfile.Command.Run

/-!
# The program

Reads the files that its arguments name and prints a response as JSON. The exit code is 1
if something failed and 2 if the arguments cannot be used.
-/

namespace StackProfile

/-- The contents of a file, if it can be read. -/
def loadFile (path : String) : IO (Option (String × ByteArray)) := do
  try return some (path, ← IO.FS.readBinFile path)
  catch _ => return none

/-- Runs an invocation and prints its outcome. -/
def Invocation.execute (i : Invocation) : IO UInt32 := do
  let contents ← i.files.filterMapM loadFile
  let outcome := i.run fun path => contents.lookup path
  if let some output := outcome.output then IO.println output.pretty
  if let some failure := outcome.failure then
    IO.eprintln s!"Error: {failure.message}"
    if let some cause := failure.cause? then IO.eprintln s!"\nCaused by:\n    {cause}"
  return UInt32.ofNat outcome.exitCode

end StackProfile

/-- The program. -/
def main (args : List String) : IO UInt32 :=
  match StackProfile.Invocation.read args with
  | .ok invocation => invocation.execute
  | .error misuse => do
    IO.eprintln s!"error: {misuse.message}"
    return 2
