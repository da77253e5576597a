import CssNest.Grammar.Branch
import CssNest.Grammar.Merge

/-!
# Automata

The automaton of a grammar: its lexicon, its states, and for each state the tokens that
are looked for in it. States look for the tokens of similar states too, as long as that
finds nothing different; this decides what is found where none of the expected tokens
stands.
-/

namespace CssNest.Grammar

/-- What is looked for at a place. -/
structure LexMode where
  tokens : TokenSet
  /-- The tokens without a pattern. -/
  ahead : TokenSet
  /-- Whether the place is searched for anything that could be read. -/
  recovering : Bool
deriving DecidableEq, Inhabited

/-- The characters that may follow each token. -/
def followingChars (is : Items) (lx : Lexicon) : Array CharClass :=
  let g := is.grammar
  let pairs := g.rules.toList.flatMap fun spec =>
    spec.alternatives.flatMap fun steps => steps.zip (steps.drop 1)
  let all := TokenSet.ofList g.tokenIndices
  let extras := TokenSet.ofList g.extras
  let following := pairs.foldl (fun (acc : Array TokenSet) (a, b) =>
    ((is.lastOf a.symbol).among g.tokenIndices).foldl
      (fun acc t => acc.modify t (·.union (is.firstOf b.symbol))) acc)
    (Array.replicate g.tokens.size .empty)
  let following := following.mapIdx fun t s =>
    if g.extras.contains t then all else s.union extras
  let starting := lx.starts.map fun places =>
    places.flatMap fun p => match lx.positions[p]? with
      | some place => if place.separator then [] else place.cls
      | none => []
  following.map fun s => (s.among g.tokenIndices).flatMap fun t => starting[t]?.getD []

/-- For each token the tokens that are looked for together with it in some state. -/
def together (g : Grammar) (states : Array State) : Array TokenSet :=
  states.foldl (fun acc s =>
    let tokens := s.tokens
    let set := TokenSet.ofList tokens
    tokens.foldl (fun acc t => acc.modify t (·.union set)) acc)
    (Array.replicate g.tokens.size .empty)

/--
The tokens that are looked for while the source is skipped: all but those that would
swallow one that stands for itself.
-/
def skippable (g : Grammar) (cs : Conflicts) (near : Array TokenSet) : List Nat :=
  let patterned := g.tokenIndices.filter g.isPatterned
  let apart (t u : Nat) : Bool := !((near[t]?.getD .empty).contains u)
  let steady := patterned.filter fun t =>
    patterned.all fun u => u == t || !apart t u || !cs.outgrows t u
  patterned.filter fun t =>
    steady.contains t || steady.all fun u => !apart t u || !cs.clashes t u

/-- The state in which the source is skipped. -/
def recoveryState (g : Grammar) (tokens : List Nat) (s : State) : State :=
  let ahead := g.tokenIndices.filter fun t => !g.isPatterned t
  { s with actions := (tokens ++ ahead ++ [g.endToken]).foldl (fun acc t =>
      acc.modify t fun as => if as.isEmpty then [.recover] else as) s.actions }

/-- Whether two sets of tokens can be looked for together without finding other tokens. -/
def compatible (g : Grammar) (cs : Conflicts) (near : Array TokenSet) (a b : TokenSet) : Bool :=
  let patterned := g.tokenIndices.filter g.isPatterned
  patterned.all fun t =>
    let without? := match a.contains t, b.contains t with
      | true, false => some b
      | false, true => some a
      | _, _ => none
    match without? with
    | none => true
    | some others => (others.among patterned).all fun u =>
      !cs.clashes t u && !(cs.get t u).endsBefore
        && ((near[t]?.getD .empty).contains u || (!cs.overlaps u t && !cs.overlaps t u))

/-- Adds a set of tokens to the first group that takes it; gives the place of the group. -/
def joinFirst (fits : TokenSet → TokenSet → Bool) (s : TokenSet) :
    List TokenSet → List TokenSet × Nat
  | [] => ([s], 0)
  | group :: rest =>
    if fits group s then (group.union s :: rest, 0)
    else
      let (rest, n) := joinFirst fits s rest
      (group :: rest, n + 1)

/-- What is looked for in each state. -/
def lexModes (g : Grammar) (cs : Conflicts) (near : Array TokenSet) (states : Array State) :
    Array LexMode :=
  let patterned := g.tokenIndices.filter g.isPatterned
  let ahead := g.tokenIndices.filter fun t => !g.isPatterned t
  let (groups, places) := states.toList.foldl (fun (acc : List TokenSet × List Nat) s =>
    let own := TokenSet.ofList ((patterned ++ [g.endToken]).filter s.accepts)
    let (groups, n) := joinFirst (compatible g cs near) own acc.1
    (groups, n :: acc.2)) ([], [])
  let groups := groups.toArray
  let places := places.reverse.toArray
  states.mapIdx fun n s =>
    { tokens := (places[n]?.bind fun p => groups[p]?).getD .empty
      ahead := .ofList (ahead.filter s.accepts)
      recovering := n == 0 }

end CssNest.Grammar

namespace CssNest

open Grammar

/-- The parser of a grammar as a table. -/
structure Automaton where
  grammar : Grammar
  lexicon : Lexicon
  /-- The wide classes of the lexicon. -/
  wide : List CharClass
  states : Array State
  modes : Array LexMode
  /-- Where the scan for the tokens of each state starts. -/
  starts : Array Scan
  /-- The tokens of each state that no other token of it can be taken for. -/
  certain : Array TokenSet

namespace Automaton

/-- The automaton of a grammar. -/
def ofGrammar (g : Grammar) : Automaton :=
  let is := Items.ofGrammar g
  let lx := Lexicon.ofGrammar g
  let drafts := Grammar.states is
  let cs := Conflicts.ofLexicon lx (followingChars is lx)
  let near := together g drafts
  let drafts := drafts.modify 0 (recoveryState g (skippable g cs near))
  let states := merge g cs drafts
  let modes := lexModes g cs near states
  { grammar := g
    lexicon := lx
    wide := lx.wide
    states
    modes
    starts := modes.map fun m => lx.start (m.tokens.among g.tokenIndices)
    certain := states.map fun s =>
      let tokens := s.tokens.filter g.isPatterned
      .ofList (s.tokens.filter fun t =>
        !g.isPatterned t || tokens.all fun u => !cs.overlaps u t) }

/-- A state by its number. -/
def state (a : Automaton) (n : Nat) : State := a.states[n]?.getD ⟨#[], #[], 0⟩

/-- What is looked for in a state. -/
def mode (a : Automaton) (n : Nat) : LexMode := a.modes[n]?.getD default

end Automaton

end CssNest
