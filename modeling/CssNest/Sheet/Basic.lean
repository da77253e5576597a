import CssNest.Distinct
import CssNest.OrderedMap
import CssNest.Rule
import CssNest.Selector
import CssNest.Sheet.Block

/-!
# Nested sheets

A nested sheet has one block per media type. Rule texts are placed in it one after the
other, each at the path of its selector; the sheet of a list of rules is what its
placements leave.
-/

namespace CssNest

/-- A rule text to be placed under a media type at the path of a selector. -/
structure Placement where
  media : String
  selector : String
  text : String
deriving DecidableEq, Repr

/-- The blocks of the media types, in the order of first use. -/
structure Sheet where
  media : OrderedMap String Block

/--
The media types under which a token of a rule is written: each of its own once, `all`
when it has none, and no media at all for a comment.
-/
def Token.scopes : Token → List String
  | .comment _ => []
  | .declaration _ media => if media.isEmpty then [allMedia] else distinct media
  | _ => [allMedia]

/-- Where the tokens of a rule go: by token, then by media type, then by selector. -/
def Rule.placements (r : Rule) : List Placement :=
  r.body.flatMap fun token =>
    token.scopes.flatMap fun media =>
      r.selectors.map fun selector => ⟨media, selector, token.line 0⟩

namespace Sheet

/-- The sheet without media types. -/
def empty : Sheet := ⟨.empty⟩

instance : BEq Sheet := ⟨fun a b => a.media == b.media⟩

/-- The media types in order. -/
def mediaTypes (s : Sheet) : List String := s.media.keys

/-- The block of a media type. -/
def block? (s : Sheet) (media : String) : Option Block := s.media.get? media

/-- Places one rule text. -/
def place (s : Sheet) (a : Placement) : Sheet :=
  ⟨s.media.update a.media .empty
    (Block.modifyAt (fun b => b.addRule a.text) (Selector.path a.selector))⟩

/-- Places rule texts one after the other. -/
def placeAll (s : Sheet) (as : List Placement) : Sheet := as.foldl place s

/-- The sheet of a list of rules. -/
def ofRules (rules : List Rule) : Sheet :=
  empty.placeAll (rules.flatMap Rule.placements)

end Sheet

end CssNest
