import CssNest.Text.Quoted

/-!
# Failures

Laying out a stylesheet cannot fail. What can fail is around it: reading files,
reading settings, setting up the grammar and reformatting the result.
-/

namespace CssNest

/-- Why a conversion did not give a result. -/
inductive Failure where
  /-- A file could not be read. -/
  | io (message : String)
  /-- Settings were not valid. -/
  | json (message : String)
  /-- The grammar could not be set up. -/
  | language (message : String)
  /-- No syntax tree came of the source. -/
  | parse (message : String)
  /-- The result could not be reformatted. -/
  | format (message : String)
  /-- There is no file at the path. -/
  | notFound (path : String)
deriving DecidableEq, Repr

namespace Failure

/-- A failed file operation without anything more to say. -/
def plainIo : Failure := .io "IO operation failed"

/-- Settings that could not be read, without anything more to say. -/
def plainJson : Failure := .json "JSON operation failed"

/-- The failure in words. -/
def message : Failure → String
  | io message => "IO error: " ++ message
  | json message => "JSON error: " ++ message
  | language message => "Failed to set up tree-sitter language: " ++ message
  | parse message => "Parse error: " ++ message
  | format message => "Format error: " ++ message
  | notFound path => "Input file not found: " ++ Text.quoted path

end Failure

end CssNest
