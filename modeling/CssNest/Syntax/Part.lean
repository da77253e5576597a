import CssNest.Syntax.Node

/-!
# Parts of a stylesheet

The kinds of node that a stylesheet is made of, and where in a node its selectors, its
queries, its property and its value stand. Comments may stand between any two tokens,
so they are passed over here.
-/

namespace CssNest

namespace Kind

/-- A ruleset: selectors and a block. -/
def ruleSet : Kind := .named "rule_set"

/-- An `@media` with its queries and its block. -/
def mediaStatement : Kind := .named "media_statement"

/-- A `@charset` with its value. -/
def charsetStatement : Kind := .named "charset_statement"

/-- A `@keyframes`, also with a vendor's mark. -/
def keyframesStatement : Kind := .named "keyframes_statement"

/-- Any other at-rule, such as `@font-face`. -/
def atRule : Kind := .named "at_rule"

/-- A comment between `/*` and `*/`. -/
def comment : Kind := .named "comment"

/-- The selectors of a ruleset. -/
def selectors : Kind := .named "selectors"

/-- What stands in braces. -/
def block : Kind := .named "block"

/-- A property with its value. -/
def declaration : Kind := .named "declaration"

/-- The name of some keyframes. -/
def keyframesName : Kind := .named "keyframes_name"

/-- The keyframes in their braces. -/
def keyframeBlockList : Kind := .named "keyframe_block_list"

/-- One keyframe. -/
def keyframeBlock : Kind := .named "keyframe_block"

/-- The keyword of an at-rule, with its `@`. -/
def atKeyword : Kind := .named "at_keyword"

/-- The property of a declaration. -/
def propertyName : Kind := .named "property_name"

/-- The mark `!important`. -/
def important : Kind := .named "important"

/-- An opening brace. -/
def openBrace : Kind := .literal "\x7b"

/-- A closing brace. -/
def closeBrace : Kind := .literal "\x7d"

/-- The colon of a declaration. -/
def colon : Kind := .literal ":"

/-- The semicolon after a declaration. -/
def semicolon : Kind := .literal ";"

end Kind

namespace Node

/-- Whether the node is a comment. -/
def isComment (n : Node) : Bool := n.kind == .comment

/-- Whether the node is a block. -/
def isBlock (n : Node) : Bool := n.kind == .block

/-- Whether the node is a declaration. -/
def isDeclaration (n : Node) : Bool := n.kind == .declaration

/-- The named parts of a node that are not comments. -/
def contents (n : Node) : List Node := n.children.filter fun c => c.isNamed && !c.isComment

/-- The named parts of a node before its block: selectors of a keyframe, queries of `@media`. -/
def heading (n : Node) : List Node := n.contents.filter fun c => !c.isBlock

end Node

/-- What is found in the parts of a declaration. -/
structure DeclarationParts where
  property : Option Node := none
  /-- Whether the colon was passed. -/
  hasColon : Bool := false
  important : Bool := false
  /-- From the first to the last node of the value. -/
  value : Option Span := none

namespace DeclarationParts

/-- Takes the next part into account. Nothing after `!important` belongs to the value. -/
def add (p : DeclarationParts) (n : Node) : DeclarationParts :=
  if n.kind == .propertyName && !p.hasColon then { p with property := some n }
  else if n.kind == .colon && !p.hasColon then { p with hasColon := true }
  else if n.kind == .important then { p with important := true }
  else if n.kind == .semicolon || n.isComment then p
  else if p.hasColon && !p.important then
    { p with value := some ⟨(p.value.map Span.start).getD n.span.start, n.span.stop⟩ }
  else p

/-- What is found in a declaration. -/
def ofNode (n : Node) : DeclarationParts := n.children.foldl add {}

end DeclarationParts

end CssNest
