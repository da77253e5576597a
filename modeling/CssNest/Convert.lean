import CssNest.Failure
import CssNest.Layout
import CssNest.Tidy
import CssNest.Settings.Basic
import CssNest.Stylesheet

/-!
# Conversion

A stylesheet becomes a nested one: it is read into tokens, these are laid out, and the
result is reformatted if that is wanted.
-/

namespace CssNest

/-- Lays a nested stylesheet out anew. -/
def reformat (d : Dialect) (text : String) : Logged (Except Failure String) :=
  match Tidy.text? d text with
  | some result => pure (.ok result)
  | none =>
    let reason := "the text cannot be read"
    ⟨.error (.format reason),
      [.warn ("Failed to reformat " ++ d.extension ++ " output: " ++ reason)]⟩

/-- The nested stylesheet of a token stream. -/
def convertTokens (s : Settings) (tokens : List Token) : Logged String :=
  Layout.text s.dialect s.extractVariables tokens

/-- The nested stylesheet of a stylesheet. -/
def convert (s : Settings) (css : String) : Logged (Except Failure String) := do
  let tokens ← tokenize css
  let output ← convertTokens s tokens
  if s.reformat then reformat s.dialect output else pure (.ok output)

end CssNest
