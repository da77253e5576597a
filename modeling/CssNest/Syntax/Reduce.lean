import CssNest.Grammar.Automaton
import CssNest.Syntax.Stack

/-!
# Reductions

Trees on the stack that are the parts of a rule become one tree. When versions of the
stack have come together there may be several ways to take the parts off, and the best
one is kept.
-/

namespace CssNest.Automaton

open Grammar Syntax

/-- The actions for what a tree stands for. -/
def actions (a : Automaton) (state : Nat) : Label → List Action
  | .symbol (.token t) => (a.state state).action t
  | _ => []

/-- The state after a token; state 0 if it does not fit. -/
def afterToken (a : Automaton) (state token : Nat) : Nat :=
  match ((a.state state).action token).getLast? with
  | some (.shift next _) => next
  | some .extra => state
  | _ => 0

/-- The state after a rule; state 0 if it does not fit. -/
def afterRule (a : Automaton) (state rule : Nat) : Nat := ((a.state state).goto? rule).getD 0

end CssNest.Automaton

namespace CssNest.Syntax

open Grammar

/-- What a parser works with. -/
structure Task where
  automaton : Automaton
  source : Source

/-- How far a parser is. -/
structure Progress where
  stack : Stack
  /-- The token that was read last, and its position in bytes. -/
  token : Option (Nat × Tree) := none
  /-- The best tree of the whole source so far. -/
  finished : Option Tree := none
  /-- How often the end of the source was reached. -/
  accepted : Nat := 0

/-- A step of a parser. -/
abbrev ParseM := ReaderT Task (StateM Progress)

/-- The most versions of the stack that are kept. -/
def maxVersions : Nat := 6

/-- How many more versions there may be for a while. -/
def overflow : Nat := 4

namespace ParseM

/-- The grammar of the source. -/
def grammar : ParseM Grammar := do return (← read).automaton.grammar

/-- The versions of the stack. -/
def stack : ParseM Stack := do return (← get).stack

/-- Changes the stack. -/
def modifyStack (f : Stack → Stack) : ParseM Unit :=
  modify fun ⟨stack, token, finished, accepted⟩ => ⟨f stack, token, finished, accepted⟩

/-- Changes the stack and finds something out. -/
def runStack {α : Type} (f : Stack → α × Stack) : ParseM α :=
  modifyGet fun ⟨stack, token, finished, accepted⟩ =>
    let (a, stack) := f stack
    (a, ⟨stack, token, finished, accepted⟩)

/-- Puts a tree on a version and goes to a state. -/
def push (v : Nat) (tree : Option Tree) (state : Nat) : ParseM Unit := do
  let g ← grammar
  modifyStack fun s => s.push g v tree state

/-- Makes one version of two, the first, if that is possible. -/
def merge (a b : Nat) : ParseM Bool := do
  let g ← grammar
  runStack fun s => s.merge g a b

/-- Merges a version into the first of some others that takes it. -/
def mergeInto (others : List Nat) (v : Nat) : ParseM Bool :=
  others.anyM fun j => merge j v

end ParseM

open ParseM

/-- Symbols in the order of the tables, tokens first. -/
def Label.rank : Label → Nat × Nat
  | .symbol (.token t) => (0, t)
  | .symbol (.rule r) => (1, r)
  | .skipped => (2, 0)
  | .error => (2, 1)

/-- The order of two labels. -/
def Label.order (a b : Label) : Ordering :=
  (compare a.rank.1 b.rank.1).then (compare a.rank.2 b.rank.2)

mutual

/-- The order of two trees: by label, then by the number of parts, then by the parts. -/
def Tree.order : Tree → Tree → Ordering
  | .mk i ps, .mk j qs =>
    ((i.label.order j.label).then (compare ps.length qs.length)).then (Tree.orderAll ps qs)

/-- The order of trees one after the other. -/
def Tree.orderAll : List Tree → List Tree → Ordering
  | p :: ps, q :: qs => (p.order q).then (Tree.orderAll ps qs)
  | _, _ => .eq

end

/-- Whether a tree gives way to another one for the same source: errors decide first. -/
def Tree.yieldsTo (old new : Tree) : Bool :=
  if new.cost != old.cost then new.cost < old.cost
  else old.cost > 0 || old.order new == .gt

/-- The best of several ways to take parts: the tree, and the extra trees after it. -/
def bestParts (g : Grammar) (rule : Nat) (aliases : List (Option Kind)) :
    List Stack.Slice → Option (Tree × List Tree)
  | [] => none
  | first :: others =>
    let build (s : Stack.Slice) :=
      let (parts, trailing) := Tree.splitExtras s.trees
      (Tree.node g (.symbol (.rule rule)) aliases parts, trailing)
    some (others.foldl (fun best s =>
      let new := build s
      if best.1.yieldsTo new.1 then new else best) (build first))

/--
Makes the last `count` trees of a version the parts of a rule. The results are new
versions; the first of them is returned, unless all came together with others.
-/
def reduce (v rule count : Nat) (aliases : List (Option Kind)) : ParseM (Option Nat) := do
  let a := (← read).automaton
  let first := (← stack).size
  let slices ← runStack fun s =>
    let (s, slices) := s.popCount v count
    (slices, s)
  let halted := (← stack).heads.countP fun h => h.status.isHalted
  let mut removed := 0
  for group in slices.splitBy fun x y => x.version == y.version do
    let version := ((group.head?.map fun x => x.version).getD 0) - removed
    if version > maxVersions + overflow + halted then
      modifyStack fun s => s.remove version
      removed := removed + 1
    else if let some (tree, trailing) := bestParts a.grammar rule aliases group then
      let next := a.afterRule ((← stack).state version) rule
      push version (some tree) next
      for t in trailing do push version (some t) next
      if ← mergeInto ((List.range version).filter (· != v)) version then
        removed := removed + 1
  return if (← stack).size > first then some first else none

/-- The tree of the whole source from what is on the stack. -/
def wholeTree? (g : Grammar) (trees : List Tree) : Option Tree :=
  let (before, trailing) := Tree.splitExtras trees
  before.getLast?.map fun t =>
    Tree.node g t.label t.info.aliases (before.dropLast ++ t.parts ++ trailing)

/-- Ends a version at the end of the source. -/
def accept (v : Nat) (ending : Tree) : ParseM Unit := do
  let g ← grammar
  push v (some ending) 1
  let slices ← runStack fun s =>
    let (s, slices) := s.popAll v
    (slices, s)
  for slice in slices do
    if let some tree := wholeTree? g slice.trees then
      modify fun p => { p with
        accepted := p.accepted + 1
        finished := if p.finished.all fun old => old.yieldsTo tree then some tree else p.finished }
  if let some slice := slices.head? then
    modifyStack fun s => s.remove slice.version
  modifyStack fun s => s.halt v

/-- The different reductions that some tokens bring about, and whether any token can be taken. -/
def outlook (a : Automaton) (state : Nat) (tokens : List Nat) : List Action × Bool :=
  let all := tokens.flatMap fun t => (a.state state).action t
  let shifts := all.any fun
    | .shift _ repeats => !repeats
    | .recover => true
    | _ => false
  let reductions := all.foldl (fun acc x =>
    match x with
    | .reduce rule count _ =>
      let known := acc.any fun
        | .reduce r c _ => r == rule && c == count
        | _ => false
      if count == 0 || known then acc else acc ++ [x]
    | _ => acc) []
  (reductions, shifts)

/--
Makes every reduction that a token could bring about, or any token where none is given.
Versions in which the token cannot be taken are left out. Says whether one was left.
-/
def reduceAll (start : Nat) (token : Option Nat) (limit : Nat) : ParseM Bool := do
  let a := (← read).automaton
  let tokens := match token with
    | some t => [t]
    | none => a.grammar.tokenIndices
  let first := (← stack).size
  let mut possible := false
  let mut v := start
  for round in [0 : limit] do
    let size := (← stack).size
    if v ≥ size then return possible
    if ← mergeInto ((List.range v).drop first) v then continue
    let (reductions, shifts) := outlook a ((← stack).state v) tokens
    let mut made : Option Nat := none
    for x in reductions do
      if let .reduce rule count aliases := x then made ← reduce v rule count aliases
    if shifts then possible := true
    else match made.filter fun _ => round < maxVersions with
      | some version =>
        modifyStack fun s => s.replace version v
        continue
      | none => if token.isSome then modifyStack fun s => s.remove v
    v := if v == start then size else v + 1
  return possible

end CssNest.Syntax
