import CssNest.Distinct
import CssNest.Log
import CssNest.Syntax.Part
import CssNest.Text.Collapse
import CssNest.Token

/-!
# From syntax trees to tokens

A syntax tree is flattened into style tokens. A declaration gets the queries of the
`@media` blocks around it, and the last one of each block is marked. Nothing is checked
here: what could not be read is passed over with a warning, and what has no tokens of
its own, such as `@import`, is kept as it is.
-/

namespace CssNest

/-- Tokens with what there is to say about them. -/
structure Emission where
  tokens : List Token
  records : List Record
deriving DecidableEq, Repr

namespace Emission

/-- Nothing. -/
def empty : Emission := ⟨[], []⟩

/-- One token. -/
def one (t : Token) : Emission := ⟨[t], []⟩

/-- One record. -/
def say (r : Record) : Emission := ⟨[], [r]⟩

/-- One part after another. -/
instance : Append Emission := ⟨fun a b => ⟨a.tokens ++ b.tokens, a.records ++ b.records⟩⟩

/-- All parts in order. -/
def join (es : List Emission) : Emission := es.foldr (· ++ ·) empty

/-- What stands between two tokens. -/
def between (opening closing : Token) (inner : Emission) : Emission :=
  one opening ++ inner ++ one closing

end Emission

namespace Source

open Text Emission

/-- The text of a node. -/
def string (src : Source) (n : Node) : String := String.ofList (src.text n)

/-- The text of a node without blanks at its ends. -/
def trimmed (src : Source) (n : Node) : String := String.ofList (trim (src.text n))

/-- The text of a node with its blanks collapsed. -/
def collapsed (src : Source) (n : Node) : String := String.ofList (collapse (src.text n))

/-- The node as it is. -/
def verbatim (src : Source) (n : Node) : Emission := one (.raw (src.trimmed n))

/-- An at-rule that could not be read, as it is. -/
def brokenAtRule (text : String) : Emission :=
  say (.warn ("Keeping unparsable at-rule verbatim: " ++ text)) ++ one (.raw text)

/-! ## Blocks -/

/-- The declaration in a node, if it has a property. -/
def declaration? (src : Source) (n : Node) (isLast : Bool) : Option Declaration :=
  let parts := DeclarationParts.ofNode n
  parts.property.map fun property =>
    { property := src.string property
      value := (parts.value.map fun s => String.ofList (collapse (src.slice s))).getD ""
      important := parts.important
      isLast }

/--
The declarations and comments of a block; `make` makes a token of a declaration. A
declaration is the last one if none comes after it.
-/
def blockItems (src : Source) (make : Declaration → Token) : List Node → Emission
  | [] => empty
  | n :: rest =>
    let first :=
      if n.isDeclaration then
        match src.declaration? n (rest.all fun r => !r.isDeclaration) with
        | some d => one (make d)
        | none => empty
      else if n.isComment then one (.comment (src.string n))
      else if n.kind == .openBrace || n.kind == .closeBrace then empty
      else if n.kind == .error then
        say (.warn ("Skipping unparsable declaration: " ++ src.trimmed n))
      else if n.isNamed then
        say (.warn ("Nested '" ++ n.kind.name ++ "' inside a block is kept verbatim"))
          ++ src.verbatim n
      else empty
    first ++ blockItems src make rest

/-- The tokens of the block in a node, if it has one. -/
def block (src : Source) (make : Declaration → Token) (n : Node) : Emission :=
  match n.child? .block with
  | some b => src.blockItems make b.children
  | none => empty

/-! ## Statements -/

/-- A ruleset under some media queries. -/
def ruleSet (src : Source) (media : List String) (n : Node) : Emission :=
  let text := trim (src.text n)
  if text.head? == some '@' then brokenAtRule (String.ofList text)
  else match n.child? .selectors, n.child? .block with
    | some selectors, some b =>
      between (.rulesetStart (selectors.contents.map src.collapsed)) .rulesetEnd
        (src.blockItems (fun d => .declaration d media) b.children)
    | _, _ => say (.warn ("Skipping ruleset without selectors or block: " ++ src.string n))

/-- A `@charset`. -/
def charset (src : Source) (n : Node) : Emission :=
  match n.contents.head? with
  | some value => one (.charset (src.string value))
  | none => say (.warn "Skipping @charset without a value")

/-- One keyframe. -/
def keyframe (src : Source) (n : Node) : Emission :=
  between (.keyframeStart (n.heading.map src.collapsed)) .keyframeEnd
    (src.block .keyframeDeclaration n)

/-- The keyframes and comments of a list of keyframes. -/
def keyframeItem (src : Source) (n : Node) : Emission :=
  if n.kind == .keyframeBlock then src.keyframe n
  else if n.isComment then one (.comment (src.string n))
  else empty

/-- A `@keyframes`, with the keyword that it is written with. -/
def keyframes (src : Source) (n : Node) : Emission :=
  let keyword := match n.children.head? with
    | some first => String.ofList ((src.text first).dropWhile (· == '@'))
    | none => "keyframes"
  let name := ((n.child? .keyframesName).map src.string).getD ""
  let items := ((n.child? .keyframeBlockList).map Node.children).getD []
  between (.keyframesStart keyword name) .keyframesEnd (join (items.map src.keyframeItem))

/-- An at-rule without tokens of its own, or `@font-face`. -/
def atRule (src : Source) (n : Node) : Emission :=
  match (n.child? .atKeyword).map src.string, n.child? .block with
  | some "@font-face", some b =>
    between .fontFaceStart .fontFaceEnd (src.blockItems .fontFaceDeclaration b.children)
  | _, _ => src.verbatim n

/-- Anything but a ruleset or `@media`. -/
def plainItem (src : Source) (n : Node) : Emission :=
  if n.kind == .charsetStatement then src.charset n
  else if n.kind == .keyframesStatement then src.keyframes n
  else if n.kind == .atRule then src.atRule n
  else if n.isComment then one (.comment (src.string n))
  else if n.kind == .error then
    let start := n.span.start
    say (.warn ("Skipping unparsable CSS at line " ++ toString (src.line start) ++ ", column "
      ++ toString (src.column start)))
  else if n.isNamed then src.verbatim n
  else empty

/-! ## Media -/

/-- The queries of a `@media` inside others: each is combined with each of those around it. -/
def combineQueries (outer queries : List String) : List String :=
  if outer.isEmpty then distinct queries
  else distinct (queries.flatMap fun q => outer.map fun o => o ++ " and " ++ q)

/-- The queries of a `@media` under those around it. -/
def queries (src : Source) (outer : List String) (n : Node) : List String :=
  combineQueries outer (n.heading.map src.collapsed)

/-- Whether a node is the beginning of an at-rule that could not be read. -/
def startsAtRule (src : Source) (n : Node) : Bool :=
  n.kind == .error && (trimStart (src.text n)).head? == some '@'

/-- The text from the start of a node to the end of another one, without blanks at its ends. -/
def joined (src : Source) (a b : Node) : String :=
  String.ofList (trim (src.slice ⟨a.span.start, b.span.stop⟩))

mutual

/--
The items of a stylesheet or of a `@media` block. What looks like a ruleset after the
beginning of a broken at-rule is the body of that rule.
-/
def items (src : Source) (media : List String) : List Node → Emission
  | [] => empty
  | [n] => src.item media n
  | n :: next :: rest =>
    if src.startsAtRule n && next.kind == .ruleSet then
      brokenAtRule (src.joined n next) ++ src.items media rest
    else src.item media n ++ src.items media (next :: rest)

/-- One item of a stylesheet or of a `@media` block. -/
def item (src : Source) (media : List String) : Node → Emission
  | .mk kind span children =>
    if kind == .ruleSet then src.ruleSet media (.mk kind span children)
    else if kind == .mediaStatement then
      let queries := src.queries media (.mk kind span children)
      between (.mediaStart queries) .mediaEnd (src.mediaBlock queries children)
    else src.plainItem (.mk kind span children)

/-- The items of the first block among the parts of a `@media`. -/
def mediaBlock (src : Source) (media : List String) : List Node → Emission
  | [] => empty
  | .mk kind _ children :: rest =>
    if kind == .block then src.items media children else src.mediaBlock media rest

end

end Source

end CssNest
