import CssNest.Grammar.Basic

/-!
# Trees under construction

While a source is read its trees carry more than a syntax tree shows: the blanks before
them, hidden rules, and what it cost to make sense of the source. Costs decide between
readings of a source with errors.
-/

namespace CssNest.Syntax

open Grammar

/-- A length of source text. -/
structure Extent where
  chars : Nat
  bytes : Nat
  lines : Nat
deriving DecidableEq, Repr, Inhabited

namespace Extent

/-- The length of nothing. -/
def zero : Extent := ⟨0, 0, 0⟩

/-- One length after another. -/
instance : Add Extent := ⟨fun a b => ⟨a.chars + b.chars, a.bytes + b.bytes, a.lines + b.lines⟩⟩

/-- The length of one character. -/
def ofChar (c : Char) : Extent := ⟨1, c.utf8Size, if c == '\n' then 1 else 0⟩

/-- The length of the source between two positions. -/
def between (src : Source) (start stop : Nat) : Extent :=
  (src.extract start stop).foldl (fun e c => e + ofChar c) zero

end Extent

/-- What a tree stands for. -/
inductive Label where
  | symbol (s : Symbol)
  /-- Source that could not be read. -/
  | error
  /-- A piece of such source, on the way to an error. -/
  | skipped
deriving DecidableEq, Inhabited

/-- What is known of a tree without looking into it. -/
structure TreeInfo where
  label : Label
  /-- What stands before the tree since the last token. -/
  padding : Extent
  size : Extent
  /-- Whether the tree may stand anywhere. -/
  extra : Bool := false
  /-- Whether the tree is a token that the source does not have. -/
  missing : Bool := false
  /-- The state in which a token was read. -/
  state : Nat := 0
  /-- The kinds that the rule gives to its parts, extra ones left out. -/
  aliases : List (Option Kind) := []
  cost : Nat := 0
  /-- How many of its parts show in the tree, looking through hidden ones. -/
  shownParts : Nat := 0
  /-- How many trees inside it show, at any depth. -/
  shownBelow : Nat := 0
deriving Inhabited

/-- A tree under construction. -/
inductive Tree where
  | mk (info : TreeInfo) (parts : List Tree)
deriving Inhabited

/-- What errors cost. -/
structure Costs where
  recovery : Nat
  missingTree : Nat
  skippedTree : Nat
  skippedByte : Nat
  skippedLine : Nat
  /-- A reading this much worse, counted with the progress of the better one, is given up. -/
  tolerance : Nat

/-- A whole recovery is dear, and skipping more is a little dearer than skipping less. -/
def costs : Costs where
  recovery := 500
  missingTree := 110
  skippedTree := 100
  skippedByte := 1
  skippedLine := 30
  tolerance := 1800

namespace Tree

/-- What is known of the tree. -/
def info : Tree → TreeInfo
  | mk i _ => i

/-- The parts of the tree. -/
def parts : Tree → List Tree
  | mk _ ps => ps

/-- What the tree stands for. -/
def label (t : Tree) : Label := t.info.label

/-- Whether the tree may stand anywhere. -/
def isExtra (t : Tree) : Bool := t.info.extra

/-- Whether the tree is an error. -/
def isError (t : Tree) : Bool := t.label == .error

/-- The length of the tree with what stands before it. -/
def total (t : Tree) : Extent := t.info.padding + t.info.size

/-- What the errors in the tree cost. -/
def cost (t : Tree) : Nat :=
  if t.info.missing then costs.missingTree + costs.recovery else t.info.cost

/-- Whether the tree shows under its own kind. -/
def isShown (g : Grammar) (t : Tree) : Bool :=
  match t.label with
  | .error => true
  | .skipped => false
  | .symbol s => (g.kindOf s).isSome

/-- The tree as one that may stand anywhere, or not. -/
def withExtra (extra : Bool) : Tree → Tree
  | mk i ps => mk { i with extra } ps

/-- A token. The end of the source may stand anywhere. -/
def leaf (g : Grammar) (token : Nat) (padding size : Extent) (state : Nat) : Tree :=
  mk { label := .symbol (.token token), padding, size, state, extra := token == g.endToken } []

/-- Characters that belong to no token. -/
def stray (padding size : Extent) (state : Nat) : Tree :=
  mk { label := .error, padding, size, state } []

/-- A token that the source does not have. -/
def missing (token : Nat) : Tree :=
  mk { label := .symbol (.token token), padding := .zero, size := .zero, missing := true } []

/-- What a part adds to the cost of the skipped source that it belongs to. -/
def skipCost (g : Grammar) (part : Tree) : Nat :=
  if part.isExtra || (part.isError && part.parts.isEmpty) then 0
  else if part.isShown g then costs.skippedTree
  else if part.parts.isEmpty then 0
  else costs.skippedTree * part.info.shownParts

/-- Takes one more part into account; the aliases left are those of the parts to come. -/
def addPart (g : Grammar) (acc : TreeInfo × List (Option Kind)) (part : Tree) :
    TreeInfo × List (Option Kind) :=
  let (i, left) := acc
  let skips := i.label == .error || i.label == .skipped
  let shownAs := if part.isExtra then none else left.head?.join
  let shown := shownAs.isSome || part.isShown g
  ({ i with
      cost := i.cost + (if part.label == .skipped then 0 else part.cost)
        + (if skips then part.skipCost g else 0)
      shownBelow := i.shownBelow + part.info.shownBelow + (if shown then 1 else 0)
      shownParts := i.shownParts + (if shown then 1 else part.info.shownParts) },
    if part.isExtra then left else left.drop 1)

/-- The length of trees one after the other, without what stands before the first. -/
def extentOf : List Tree → Extent
  | [] => .zero
  | first :: rest => rest.foldl (fun e part => e + part.total) first.info.size

/-- A tree made of parts. What stands before the first part stands before the tree. -/
def node (g : Grammar) (label : Label) (aliases : List (Option Kind)) (parts : List Tree) : Tree :=
  let size := extentOf parts
  let padding := (parts.head?.map fun p => p.info.padding).getD .zero
  let own := if label == .error || label == .skipped then
      costs.recovery + costs.skippedByte * size.bytes + costs.skippedLine * size.lines
    else 0
  let start : TreeInfo := { label, padding, size, aliases, cost := own }
  mk (parts.foldl (addPart g) (start, aliases)).1 parts

/-- The trees without those at their end that may stand anywhere, and the latter. -/
def splitExtras (ts : List Tree) : List Tree × List Tree :=
  let trailing := ts.reverse.takeWhile isExtra
  (ts.take (ts.length - trailing.length), trailing.reverse)

mutual

/-- The nodes that show of a tree that starts at a position, blanks included. -/
def nodes (g : Grammar) (shownAs : Option Kind) (start : Nat) : Tree → List Node
  | mk i parts =>
    let kind := shownAs.or (match i.label with
      | .error => some .error
      | .skipped => none
      | .symbol s => g.kindOf s)
    let inner := partNodes g i.aliases start parts
    match kind with
    | some k =>
      let first := start + i.padding.chars
      [.mk k ⟨first, first + i.size.chars⟩ inner]
    | none => inner

/-- The nodes that show of trees one after the other. -/
def partNodes (g : Grammar) (aliases : List (Option Kind)) (start : Nat) : List Tree → List Node
  | [] => []
  | part :: rest =>
    let shownAs := if part.isExtra then none else aliases.head?.join
    let left := if part.isExtra then aliases else aliases.drop 1
    part.nodes g shownAs start ++ partNodes g left (start + part.total.chars) rest

end

end Tree

end CssNest.Syntax
