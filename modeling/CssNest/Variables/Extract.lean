import CssNest.Dialect
import CssNest.Token
import CssNest.Variables.Table

/-!
# Variable extraction

Declarations refer to variables in place of their values, if these have names.
Only declarations of rulesets take part.
-/

namespace CssNest.Variables

/-- A token with its value replaced by a reference, and the table that explains it. -/
def replace (d : Dialect) (t : Variables) : Token → Token × Variables
  | .declaration body media =>
    match t.define body.property body.value with
    | (some name, t') => (.declaration { body with value := d.reference name } media, t')
    | (none, t') => (.declaration body media, t')
  | token => (token, t)

/-- Replaces the values of a stream from its start, carrying the table along. -/
def replaceAll (d : Dialect) (t : Variables) : List Token → List Token × Variables
  | [] => ([], t)
  | token :: rest =>
    let step := replace d t token
    let later := replaceAll d step.2 rest
    (step.1 :: later.1, later.2)

/-- The stream with references, and the table of all its variables. -/
def extract (d : Dialect) (tokens : List Token) : List Token × Variables :=
  replaceAll d empty tokens

/-- One line for each variable, then a blank line if there was any. -/
def render (d : Dialect) (t : Variables) : String :=
  if t.isEmpty then ""
  else String.join (t.bindings.map fun b => d.declaration b.2 b.1 ++ "\n") ++ "\n"

end CssNest.Variables
