import CssNest.Syntax.Parser
import CssNest.Token.Emission

/-!
# Reading a stylesheet

A stylesheet is parsed and flattened into style tokens.
-/

namespace CssNest

/-- The tokens of a syntax tree. -/
def Parsed.tokens (p : Parsed) (src : Source) : Logged (List Token) :=
  let emission := src.items [] p.root.children
  let warning := if p.hasError then
      [.warn "Stylesheet contains syntax errors, affected parts are skipped"]
    else []
  let count := .debug ("Tokenized stylesheet into " ++ toString emission.tokens.length ++ " tokens")
  ⟨emission.tokens, warning ++ emission.records ++ [count]⟩

/-- The tokens of a stylesheet. -/
def tokenize (css : String) : Logged (List Token) :=
  let src := Source.ofString css
  (Css.parse src).tokens src

end CssNest
