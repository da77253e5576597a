import CssNest.Log
import CssNest.Sheet.Render
import CssNest.Variables.Extract

/-!
# Layout

A token stream is laid out as a nested stylesheet in three parts: the variables, the
tokens outside rulesets, and the sheet of the rules.
-/

namespace CssNest

/-- The parts of a nested stylesheet. -/
structure Layout where
  dialect : Dialect
  table : Option Variables
  topLevel : List Token
  sheet : Sheet

namespace Layout

/-- The tokens to lay out, with the table of their variables when these are wanted. -/
def prepare (d : Dialect) (extracts : Bool) (tokens : List Token) :
    List Token × Option Variables :=
  if extracts then
    let extracted := Variables.extract d tokens
    (extracted.1, some extracted.2)
  else (tokens, none)

/-- The layout of a token stream. -/
def ofTokens (d : Dialect) (extracts : Bool) (tokens : List Token) : Layout :=
  let prepared := prepare d extracts tokens
  let extraction := Rule.extract prepared.1
  ⟨d, prepared.2, extraction.topLevel, .ofRules extraction.rules⟩

/-- What there is to say about the layout of a token stream. -/
def records (d : Dialect) (extracts : Bool) (tokens : List Token) : List Record :=
  let prepared := prepare d extracts tokens
  let extraction := Rule.extract prepared.1
  let media := (Sheet.ofRules extraction.rules).mediaTypes
  prepared.2.toList.map (fun t => .debug ("Extracted " ++ toString t.size ++ " variables"))
    ++ extraction.records
    ++ [.debug ("Laying out " ++ toString extraction.topLevel.length ++ " top-level tokens and "
        ++ toString extraction.rules.length ++ " rules across " ++ toString media.length
        ++ " media types")]

/-- The tokens outside rulesets, one to a line. -/
def renderTopLevel (tokens : List Token) : String :=
  String.join (tokens.map fun token => token.line 0 ++ "\n")

/-- The text of a layout. -/
def render (l : Layout) : String :=
  ((l.table.map (Variables.render l.dialect)).getD "") ++ renderTopLevel l.topLevel
    ++ l.sheet.render

/-- The text of a token stream, with what there is to say about it. -/
def text (d : Dialect) (extracts : Bool) (tokens : List Token) : Logged String :=
  ⟨(ofTokens d extracts tokens).render, records d extracts tokens⟩

end Layout

end CssNest
