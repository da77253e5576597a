import CssNest.Grammar.Conflict
import CssNest.Grammar.Table

/-!
# Merged states

Many states have the same items and differ only in what may follow them. They become
one state where that loses nothing: where they agree on every token that both have, and
where the tokens that only one of them has do not clash with those of the other. States
in which the only thing to do is to finish a rule that does not show are passed over.
-/

namespace CssNest.Grammar

/-- States in groups, and the group of each. -/
structure Groups where
  members : Array (List Nat)
  groupOf : Array Nat

namespace Groups

/-- States with the same core in one group. -/
def byCore (states : Array State) : Groups :=
  let count := states.foldl (fun m s => max m (s.core + 1)) 0
  let members := states.toList.zipIdx.foldl
    (fun acc (s, n) => acc.modify s.core (· ++ [n])) (Array.replicate count [])
  ⟨members, states.map (·.core)⟩

/-- The group of a state. -/
def of (g : Groups) (state : Nat) : Nat := g.groupOf[state]?.getD 0

/-- The members of a group that differ from an earlier member that stays. -/
def leaving (differ : Nat → Nat → Bool) (members : List Nat) : List Nat :=
  go members.length members []
where
  /-- Each member in turn sends away the later ones that differ from it. -/
  go : Nat → List Nat → List Nat → List Nat
    | 0, _, out => out
    | _, [], out => out
    | fuel + 1, m :: rest, out =>
      if out.contains m then go fuel rest out
      else go fuel rest (rest.foldl (fun out r =>
        if out.contains r then out else if differ m r then out ++ [r] else out) out)

/-- Splits every group once, the new ones included. Says whether any was split. -/
def split (g : Groups) (differ : Groups → Nat → Nat → Bool) : Groups × Bool := Id.run do
  let mut g := g
  let mut changed := false
  for n in [0 : g.groupOf.size + g.members.size] do
    match g.members[n]? with
    | none => return (g, changed)
    | some members =>
      let out := leaving (differ g) members
      if !out.isEmpty then
        changed := true
        let fresh := g.members.size
        g := ⟨(g.members.setIfInBounds n (members.filter fun m => !out.contains m)).push out,
          out.foldl (fun acc m => acc.setIfInBounds m fresh) g.groupOf⟩
  return (g, changed)

/-- Splits groups until they stay as they are; each round makes at least one more. -/
def settle (g : Groups) (differ : Groups → Nat → Nat → Bool) : Groups := Id.run do
  let mut g := g
  for _ in [0 : g.groupOf.size] do
    let (next, changed) := g.split differ
    g := next
    if !changed then return g
  return g

end Groups

/-- Whether two lists of actions do the same, up to the groups of states. -/
def sameActions (g : Groups) (a b : List Action) : Bool :=
  a.length == b.length && (a.zip b).all fun p =>
    match p with
    | (.shift s r, .shift t q) => g.of s == g.of t && r == q
    | (x, y) => x == y

/--
Whether a token can come into a state that has some others. The end of the text has no
pattern of its own and comes in where the first token could.
-/
def mayJoin (g : Grammar) (cs : Conflicts) (others : List Nat) (t : Nat) : Bool :=
  let t := if t == g.endToken then 0 else t
  g.isPatterned t && others.all fun u => !g.isPatterned u || !cs.clashes t u

/-- Whether two states cannot be one because of their tokens. -/
def clash (g : Grammar) (cs : Conflicts) (states : Array State) (gs : Groups) (a b : Nat) :
    Bool :=
  match states[a]?, states[b]? with
  | some s, some t =>
    let ss := s.tokens
    let ts := t.tokens
    (ss.any fun k =>
      if t.accepts k then !sameActions gs (s.action k) (t.action k) else !mayJoin g cs ts k)
    || ts.any fun k => !s.accepts k && !mayJoin g cs ss k
  | _, _ => false

/-- The state to which a token is taken. -/
def shiftTarget? (as : List Action) : Option Nat :=
  match as.getLast? with
  | some (.shift n _) => some n
  | _ => none

/-- Whether two states go to different groups by the same token or rule. -/
def diverge (states : Array State) (gs : Groups) (a b : Nat) : Bool :=
  match states[a]?, states[b]? with
  | some s, some t =>
    ((s.actions.zip t.actions).any fun (x, y) =>
      match shiftTarget? x, shiftTarget? y with
      | some m, some n => gs.of m != gs.of n
      | _, _ => false)
    || (s.gotos.zip t.gotos).any fun (x, y) =>
      match x, y with
      | some m, some n => gs.of m != gs.of n
      | _, _ => false
  | _, _ => false

/-- A state with its references changed. -/
def State.redirect (f : Nat → Nat) (s : State) : State :=
  { s with
    actions := s.actions.map fun as => as.map fun a =>
      match a with
      | .shift n r => .shift (f n) r
      | a => a
    gotos := s.gotos.map (·.map f) }

/-- What either of two states does. -/
def State.join (a b : State) : State :=
  { a with
    actions := a.actions.zipWith (fun x y => if x.isEmpty then y else x) b.actions
    gotos := a.gotos.zipWith (fun x y => x.or y) b.gotos }

/-- One state for each group of compatible states. -/
def mergeCompatible (g : Grammar) (cs : Conflicts) (states : Array State) : Array State :=
  let (gs, _) := (Groups.byCore states).split (clash g cs states)
  let gs := gs.settle (diverge states)
  gs.members.map fun members =>
    match members.filterMap fun n => states[n]? with
    | [] => ⟨#[], #[], 0⟩
    | s :: rest => (rest.foldl State.join s).redirect gs.of

/-- The rule that a state finishes, when that is all it does and the rule does not show. -/
def unitRule? (g : Grammar) (s : State) : Option Nat :=
  let actions := s.actions.toList.flatten.filter (· != .extra)
  match actions with
  | .reduce r 1 aliases :: _ =>
    if (g.kindOf (.rule r)).isNone && aliases.all Option.isNone
      && actions.all (· == .reduce r 1 aliases) then some r else none
  | _ => none

/-- Where a reference leads when the states that only finish a rule are passed over. -/
def passOver (units : Array (Option Nat)) (s : State) : Nat → Nat → Nat
  | 0, n => n
  | fuel + 1, n =>
    match units[n]?.join with
    | none => n
    | some r =>
      match s.goto? r with
      | some m => if m == n then n else passOver units s fuel m
      | none => n

/-- The states with references past those that only finish a rule. -/
def skipUnits (g : Grammar) (states : Array State) : Array State :=
  let units := states.map (unitRule? g)
  states.map fun s => s.redirect (passOver units s states.size)

/-- The states that a state refers to. -/
def State.targets (s : State) : List Nat :=
  (s.actions.toList.flatten.filterMap fun a =>
    match a with
    | .shift n _ => some n
    | _ => none) ++ s.gotos.toList.filterMap id

/-- The states that are referred to, the first two always; large ones come first. -/
def arrange (states : Array State) : Array State :=
  let used := states.foldl (fun acc s =>
      s.targets.foldl (fun acc n => acc.setIfInBounds n true) acc)
    (((Array.replicate states.size false).setIfInBounds 0 true).setIfInBounds 1 true)
  let kept := (List.range states.size).filter fun n => used[n]?.getD false
  let sized := (kept.drop 2).map fun n => (n, ((states[n]?).map State.size).getD 0)
  let order := kept.take 2 ++ (sized.mergeSort fun a b => b.2 ≤ a.2).map Prod.fst
  let places := order.zipIdx.foldl (fun acc (n, i) => acc.setIfInBounds n i)
    (Array.replicate states.size 0)
  (order.filterMap fun n => states[n]?).toArray.map (·.redirect fun n => places[n]?.getD 0)

/-- The states of the parser, merged and in order. -/
def merge (g : Grammar) (cs : Conflicts) (states : Array State) : Array State :=
  arrange (skipUnits g (mergeCompatible g cs states))

end CssNest.Grammar
