import CssNest.CommandLine
import Std.Time

/-!
# The program

Reads the files that the arguments name, and writes what the command line makes of
them: the result to standard output, everything else to standard error.
-/

namespace CssNest

open CommandLine

/-- The name of the program in its own messages. -/
def programName : String := "css_converter"

/-- What there is at a path: what cannot be opened is missing, unless access is denied. -/
def lookAt (path : String) : IO FileState := do
  try
    let _ ← IO.FS.Handle.mk path .read
  catch
    | .permissionDenied .. => return .unreadable
    | _ => return .missing
  try
    return .text (← IO.FS.readFile path)
  catch _ => return .unreadable

/-- The paths that the program reads for some arguments. -/
def pathsOf (args : List String) : List String :=
  match parse args with
  | .ok options => options.input :: options.configPath.toList
  | .error _ => []

/-- The files at some paths; nothing is anywhere else. -/
def readFiles (paths : List String) : IO Files := do
  let states ← paths.mapM fun path => do return (path, ← lookAt path)
  return fun path => (states.lookup path).getD .missing

/-- The time of a record, to the millisecond. -/
def timeStamp : IO String := do
  let now := Std.Time.DateTime.ofTimestampWithZone (← Std.Time.Timestamp.now) .UTC
  return now.format "uuuu-MM-dd HH:mm:ss.SSS"

/-- Writes a notice; records get the time. -/
def tell (n : Notice) : IO Unit := do
  match n with
  | .plain line => IO.eprintln line
  | .record _ => IO.eprintln ("[" ++ (← timeStamp) ++ "] " ++ n.line)

end CssNest

open CssNest in
/-- Converts the stylesheet that the arguments name. -/
def main (args : List String) : IO UInt32 := do
  let files ← readFiles (pathsOf args)
  let outcome := CommandLine.run programName files args
  outcome.notices.forM tell
  IO.print outcome.output
  return outcome.exitCode.toUInt32
