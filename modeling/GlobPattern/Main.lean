import GlobPattern.Command

/-!
# The program

Runs the command on the arguments of the process: finds the configuration file, if there is one,
and prints what the command prints.
-/

namespace GlobPattern

/-- The content of a regular file. -/
def readFile? (path : String) : IO (Option ByteArray) := do
  try
    return some (← IO.FS.readBinFile path)
  catch _ =>
    return none

/-- Carry out the arguments of the process. -/
def runProcess (argv : List String) : IO UInt32 := do
  let path := match Arguments.parse argv with
    | .ok a => Config.path a.config? "."
    | .error _ => ""
  let content ← if path = "" then pure none else readFile? path
  let read : Config.Reader := fun p => .ok (if p = path then content else none)
  match Command.run .unlimited read .unchanged argv with
  | .ok outcome =>
    IO.print outcome.stdout
    IO.eprint outcome.stderr
    return outcome.exitCode.toUInt32
  | .error (.config e) =>
    IO.eprintln e.message
    return 1
  | .error (.failure _) => return 1

end GlobPattern

/-- The program. -/
def main (argv : List String) : IO UInt32 := GlobPattern.runProcess argv
