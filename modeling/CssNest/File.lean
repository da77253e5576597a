import CssNest.Failure
import CssNest.Settings.Basic

/-!
# Files

What the program finds at a path. Nothing here reads a file: the files are given as a
function from paths.
-/

namespace CssNest

/-- What there is at a path. -/
inductive FileState where
  | missing
  /-- A directory, or a file that holds no text. -/
  | unreadable
  | text (content : String)
deriving DecidableEq, Repr

/-- The files that can be read. -/
abbrev Files := String → FileState

namespace Files

/-- The text at a path; `purpose` says in a failure what the path was read for. -/
def read (files : Files) (purpose path : String) : Except Failure String :=
  match files path with
  | .missing => .error (.notFound path)
  | .unreadable => .error (.io ("Failed to read " ++ purpose ++ path))
  | .text content => .ok content

end Files

/-- The settings in a file. -/
def Settings.load (files : Files) (path : String) : Except Failure Settings := do
  Settings.ofText (← files.read "config file " path)

end CssNest
