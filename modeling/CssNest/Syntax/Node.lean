/-!
# Syntax trees

The syntax tree of a stylesheet. Every node has the part of the source that it
covers, so the text of a node is always text of the source. Parts that the grammar
could not read are nodes of kind `error`.
-/

namespace CssNest

/-- What a node is. -/
inductive Kind where
  /-- A construct of the grammar, such as `rule_set`. -/
  | named (name : String)
  /-- A fixed piece of text, such as `;`. -/
  | literal (text : String)
  /-- Source text that the grammar could not read. -/
  | error
deriving DecidableEq, Repr, Hashable, Inhabited

namespace Kind

/-- The name of a kind in messages. -/
def name : Kind → String
  | named name => name
  | literal text => text
  | error => "ERROR"

/-- Constructs and errors have a name of their own, fixed text has not. -/
def isNamed : Kind → Bool
  | literal _ => false
  | _ => true

end Kind

/-- A part of the source, from a character to the one after its last. -/
structure Span where
  start : Nat
  stop : Nat
deriving DecidableEq, Repr, Inhabited

/-- A node of a syntax tree. -/
inductive Node where
  | mk (kind : Kind) (span : Span) (children : List Node)
deriving Inhabited

namespace Node

/-- What the node is. -/
def kind : Node → Kind
  | mk k _ _ => k

/-- The part of the source that the node covers. -/
def span : Node → Span
  | mk _ s _ => s

/-- The parts of the node, in source order. -/
def children : Node → List Node
  | mk _ _ cs => cs

/-- Whether the node has a name of its own. -/
def isNamed (n : Node) : Bool := n.kind.isNamed

/-- The first part of a kind. -/
def child? (n : Node) (k : Kind) : Option Node := n.children.find? fun c => c.kind == k

end Node

/-- A stylesheet as a sequence of characters. -/
abbrev Source := Array Char

namespace Source

/-- The characters of a text. -/
def ofString (s : String) : Source := s.toList.toArray

/-- The characters of a part of the source. -/
def slice (src : Source) (s : Span) : List Char := (src.extract s.start s.stop).toList

/-- The text that a node covers. -/
def text (src : Source) (n : Node) : List Char := src.slice n.span

/-- The line of a position, counted from one. -/
def line (src : Source) (position : Nat) : Nat :=
  ((src.extract 0 position).toList.filter (· == '\n')).length + 1

/-- The bytes between the start of its line and a position, counted from one. -/
def column (src : Source) (position : Nat) : Nat :=
  let before := (src.extract 0 position).toList.reverse.takeWhile (· != '\n')
  before.foldl (fun n c => n + c.utf8Size) 1

end Source

end CssNest
