import CssNest.Grammar.Pattern
import CssNest.Syntax.Node

/-!
# Grammars

A grammar is a table of tokens and a table of rules. A rule lists its alternatives,
each a sequence of steps; a step may give the node it makes a kind of its own.

Rules without a kind do not show in the tree: what they consist of stands in their
place. Repetitions are such rules, in the form of a list that is two shorter lists.
-/

namespace CssNest.Grammar

/-- A token of a grammar. -/
structure TokenSpec where
  /-- How the token shows in the tree, if it does. -/
  kind : Option Kind
  /-- The texts of the token; without a pattern it is found by looking ahead. -/
  pattern : Option Pattern
  /-- A token of higher precedence is taken before a longer one. -/
  precedence : Int := 0
  /-- Among tokens of one text the highest rank wins, then the earlier in the table. -/
  rank : Nat := 0
  /-- Whether no blanks may stand before the token. -/
  immediate : Bool := false
deriving Inhabited

/-- A token or a rule, by its place in the table. -/
inductive Symbol where
  | token (index : Nat)
  | rule (index : Nat)
deriving DecidableEq, Repr, Hashable, Inhabited

/-- One step of an alternative. -/
structure Step where
  symbol : Symbol
  /-- The kind that the step gives to its node. -/
  shownAs : Option Kind := none
deriving DecidableEq, Repr, Hashable, Inhabited

/-- A rule of a grammar. -/
structure RuleSpec where
  /-- How the rule shows in the tree, if it does. -/
  kind : Option Kind
  /-- Whether the rule is a repetition. -/
  repetition : Bool := false
  precedence : Int := 0
  /-- Whether operators of the same precedence group to the left. -/
  leftAssociative : Bool := false
  alternatives : List (List Step)
deriving Inhabited

end CssNest.Grammar

namespace CssNest

/-- Tokens, rules, and the tokens that may stand anywhere. The first rule is the start. -/
structure Grammar where
  tokens : Array Grammar.TokenSpec
  rules : Array Grammar.RuleSpec
  extras : List Nat
  /-- The characters that may stand before a token. -/
  blanks : Grammar.CharClass

namespace Grammar

/-- The number that stands for the end of the source, after those of the tokens. -/
def endToken (g : Grammar) : Nat := g.tokens.size

/-- The numbers of the tokens. -/
def tokenIndices (g : Grammar) : List Nat := List.range g.tokens.size

/-- Whether a token has a pattern. -/
def isPatterned (g : Grammar) (t : Nat) : Bool :=
  match g.tokens[t]? with
  | some spec => spec.pattern.isSome
  | none => false

/-- The kind of a symbol. -/
def kindOf (g : Grammar) : Symbol → Option Kind
  | .token t => g.tokens[t]?.bind TokenSpec.kind
  | .rule r => g.rules[r]?.bind RuleSpec.kind

end Grammar

end CssNest
