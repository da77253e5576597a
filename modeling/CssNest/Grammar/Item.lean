import CssNest.Grammar.Basic
import CssNest.Grammar.TokenSet
import Std.Data.HashMap

/-!
# Items

An item is an alternative of a rule that is being read. Of the steps already passed
only the kinds that they give to their nodes are kept: the symbols do not matter any
more, so alternatives that differ in them alone become one item.

The items of a grammar are numbered, and what is asked of them again and again is
tabulated: the next symbol, the item after it, and the tokens with which a symbol can
start and end.
-/

namespace CssNest.Grammar

/-- An alternative that is read up to some point. -/
structure Item where
  /-- The rule; the number after the last rule stands for the whole source. -/
  rule : Nat
  passed : List (Option Kind)
  rest : List Step
deriving DecidableEq, Hashable, Inhabited

namespace Item

/-- The item after its next step. -/
def advance (i : Item) : Item :=
  match i.rest with
  | [] => i
  | step :: rest => { i with passed := i.passed ++ [step.shownAs], rest }

/-- The item and those that come after it. -/
def stages (i : Item) : List Item :=
  (List.range (i.rest.length + 1)).map fun n => Nat.repeat advance n i

end Item

/-- An item that a rule starts with when another rule is expected. -/
structure Opening where
  item : Nat
  /-- The tokens that can follow it for sure. -/
  follow : TokenSet
  /-- Whether what follows the expected rule can follow it too. -/
  inherits : Bool

/-- The items of a grammar with their tables. -/
structure Items where
  grammar : Grammar
  items : Array Item
  /-- The number of each item after its next step. -/
  after : Array Nat
  first : Array TokenSet
  last : Array TokenSet
  /-- For each rule the items that it opens. -/
  openings : Array (List Opening)

namespace Items

/-- The items at the start of the alternatives of a rule. -/
def initial (g : Grammar) (rule : Nat) : List Item :=
  match g.rules[rule]? with
  | some spec => spec.alternatives.map fun steps => ⟨rule, [], steps⟩
  | none => [⟨rule, [], [{ symbol := .rule 0 }]⟩]

/-- The tokens that a symbol starts or ends with, by a table for the rules. -/
def edge (table : Array TokenSet) : Symbol → TokenSet
  | .token t => .singleton t
  | .rule r => table[r]?.getD .empty

/-- One round of collecting the tokens with which the rules start or end. -/
def edgeRound (g : Grammar) (pick : List Step → Option Step) (table : Array TokenSet) :
    Array TokenSet :=
  g.rules.mapIdx fun r spec =>
    spec.alternatives.foldl (fun set steps =>
      match pick steps with
      | some step => set.union (edge table step.symbol)
      | none => set) (table[r]?.getD .empty)

/-- The tokens with which the rules start or end; each round reaches one rule further. -/
def edges (g : Grammar) (pick : List Step → Option Step) : Array TokenSet :=
  Nat.repeat (edgeRound g pick) g.rules.size (Array.replicate g.rules.size .empty)

/-- What is known of a rule that is opened: tokens that follow it, and if it inherits more. -/
abbrev Opened := Option (TokenSet × Bool)

/-- One round of finding the rules that are opened by those opened so far. -/
def openRound (g : Grammar) (first : Array TokenSet) (opened : Array Opened) : Array Opened :=
  (List.range g.rules.size).foldl (fun acc r =>
    match acc[r]?.join with
    | none => acc
    | some (follow, inherits) =>
      ((g.rules[r]?.map (·.alternatives)).getD []).foldl (fun acc steps =>
        match steps with
        | { symbol := .rule q, .. } :: rest =>
          let more : TokenSet × Bool := match rest with
            | next :: _ => (edge first next.symbol, false)
            | [] => (follow, inherits)
          acc.modify q fun o => match o with
            | none => some more
            | some (f, b) => some (f.union more.1, b || more.2)
        | _ => acc) acc) opened

/-- The rules that are opened when a rule is expected. -/
def opened (g : Grammar) (first : Array TokenSet) (rule : Nat) : Array Opened :=
  Nat.repeat (openRound g first) g.rules.size
    ((Array.replicate g.rules.size none).setIfInBounds rule (some (.empty, true)))

/-- The numbered items of a grammar. -/
def ofGrammar (g : Grammar) : Items :=
  let all := (List.range (g.rules.size + 1)).flatMap fun r =>
    (initial g r).flatMap Item.stages
  let (items, index) := all.foldl (fun (acc : Array Item × Std.HashMap Item Nat) i =>
    if acc.2.contains i then acc else (acc.1.push i, acc.2.insert i acc.1.size)) (#[], {})
  let number (i : Item) : Nat := index[i]?.getD 0
  let first := edges g List.head?
  { grammar := g
    items
    after := items.map fun i => number i.advance
    first
    last := edges g List.getLast?
    openings := Array.ofFn fun (rule : Fin g.rules.size) =>
      (opened g first rule.val).toList.zipIdx.flatMap fun (o, r) =>
        match o with
        | none => []
        | some (follow, inherits) =>
          (initial g r).map fun i => ⟨number i, follow, inherits⟩ }

/-- The tokens that a symbol can start with. -/
def firstOf (is : Items) (s : Symbol) : TokenSet := edge is.first s

/-- The tokens that a symbol can end with. -/
def lastOf (is : Items) (s : Symbol) : TokenSet := edge is.last s

end Items

end CssNest.Grammar
