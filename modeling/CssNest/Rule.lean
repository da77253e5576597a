import CssNest.Log
import CssNest.Token

/-!
# Rules

A rule is a list of selectors with the tokens between the start and the end of its
ruleset. Extraction sorts a token stream into rules and the tokens outside them. The
ends of `@media` blocks are dropped, because declarations carry their media.

A ruleset that is opened again or never closed before it ended is left out, and a
record says so.
-/

namespace CssNest

/-- The selectors of a ruleset as written, and the tokens it holds. -/
structure Rule where
  selectors : List String
  body : List Token
deriving DecidableEq, Repr

/-- A token stream sorted into rules and tokens outside them, with what was noticed. -/
structure Extraction where
  topLevel : List Token := []
  rules : List Rule := []
  records : List Record := []
deriving DecidableEq, Repr

namespace Extraction

/-- One extraction after the other. -/
instance : Append Extraction where
  append a b := ⟨a.topLevel ++ b.topLevel, a.rules ++ b.rules, a.records ++ b.records⟩

end Extraction

namespace Rule

/-- How a left-out rule is described. -/
def dropped (r : Rule) : String :=
  ", dropping " ++ toString r.body.length ++ " declarations"

/-- A ruleset started while `r` was open. -/
def neverClosed (r : Rule) : Record :=
  .warn ("Ruleset '" ++ ",".intercalate r.selectors ++ "' was never closed" ++ r.dropped)

/-- The stream ended while `r` was open. -/
def cutShort (r : Rule) : Record :=
  .warn ("Token stream ended inside ruleset '" ++ ",".intercalate r.selectors ++ "'" ++ r.dropped)

/-- A ruleset ended while none was open. -/
def unmatchedEnd : Record := .debug "Ignoring ruleset end without a matching start"

/-- Extraction from a point of the stream where the rule `opened` is open, if any. -/
def extractFrom (opened : Option Rule) : List Token → Extraction
  | [] => { records := opened.toList.map cutShort }
  | token :: rest =>
    match token, opened with
    | .mediaStart _, _ => extractFrom opened rest
    | .mediaEnd, _ => extractFrom opened rest
    | .rulesetStart selectors, _ =>
      { records := opened.toList.map neverClosed } ++ extractFrom (some ⟨selectors, []⟩) rest
    | .rulesetEnd, some rule => { rules := [rule] } ++ extractFrom none rest
    | .rulesetEnd, none => { records := [unmatchedEnd] } ++ extractFrom none rest
    | other, some rule => extractFrom (some { rule with body := rule.body ++ [other] }) rest
    | other, none => { topLevel := [other] } ++ extractFrom none rest

/-- The rules of a token stream, and the tokens outside them. -/
def extract (tokens : List Token) : Extraction := extractFrom none tokens

end Rule

end CssNest
