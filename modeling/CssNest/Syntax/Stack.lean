import CssNest.Syntax.Tree

/-!
# Stacks with several versions

A source with errors is read in several ways at once. Each way is a version of the
stack; the versions share what they have in common, so together they are a graph. A
vertex is a state of the parser at a position, and a link to an earlier vertex carries
the tree between the two.
-/

namespace CssNest.Syntax

open Grammar

/-- A step back on the stack; without a tree where reading was broken off. -/
structure Link where
  vertex : Nat
  tree : Option Tree
deriving Inhabited

/-- A state of the parser at a position. -/
structure Vertex where
  state : Nat
  position : Extent
  links : List Link
  /-- What the errors up to here cost. -/
  cost : Nat
  /-- How many trees up to here show. -/
  shown : Nat
deriving Inhabited

/-- A place on the stack to which a recovery may go back. -/
structure Landmark where
  position : Extent
  depth : Nat
  state : Nat

/-- How a version goes on. -/
inductive Status where
  | active
  /-- Stopped before a token that does not fit. -/
  | paused (lookahead : Tree)
  | halted
deriving Inhabited

namespace Status

/-- Whether a version can go on. -/
def isActive : Status → Bool
  | active => true
  | _ => false

/-- Whether a version is stopped before a token. -/
def isPaused : Status → Bool
  | paused _ => true
  | _ => false

/-- Whether a version is given up. -/
def isHalted : Status → Bool
  | halted => true
  | _ => false

end Status

/-- The top of a version. -/
structure Head where
  vertex : Nat
  /-- Where a recovery of this version may go back to. -/
  landmarks : Option (List Landmark) := none
  /-- How many trees showed when the version last met an error. -/
  shownAtError : Nat := 0
  status : Status := .active
deriving Inhabited

/-- How many trees a tree adds to those that show; skipped source counts as progress. -/
def Tree.shownCount (g : Grammar) (t : Tree) : Nat :=
  t.info.shownBelow + (if t.isShown g then 1 else 0) + (if t.label == .skipped then 1 else 0)

/-- Whether two links may carry either of two trees without any difference. -/
def Tree.interchangeable (a b : Option Tree) : Bool :=
  match a, b with
  | none, none => true
  | some a, some b =>
    a.label == b.label && ((a.cost > 0 && b.cost > 0)
      || (a.info.padding.bytes == b.info.padding.bytes && a.info.size.bytes == b.info.size.bytes
        && a.parts.length == b.parts.length && a.isExtra == b.isExtra))
  | _, _ => false

/-- The versions of the stack and the graph that they share. -/
structure Stack where
  vertices : Array Vertex
  heads : Array Head

namespace Stack

/-- The stack at the start of a source. -/
def initial (state : Nat) : Stack :=
  ⟨#[⟨state, .zero, [], 0, 0⟩], #[{ vertex := 0 }]⟩

/-- The most links that a vertex has. -/
def maxLinks : Nat := 8

/-- The most ways back that are followed at once. -/
def maxWays : Nat := 64

/-- A vertex by its number. -/
def vertex (s : Stack) (n : Nat) : Vertex := s.vertices[n]?.getD default

/-- The top of a version. -/
def head (s : Stack) (v : Nat) : Head := s.heads[v]?.getD { vertex := 0, status := .halted }

/-- The vertex at the top of a version. -/
def top (s : Stack) (v : Nat) : Vertex := s.vertex (s.head v).vertex

/-- The number of versions. -/
def size (s : Stack) : Nat := s.heads.size

/-- The state of a version. -/
def state (s : Stack) (v : Nat) : Nat := (s.top v).state

/-- The position of a version. -/
def position (s : Stack) (v : Nat) : Extent := (s.top v).position

/-- Changes the top of a version. -/
def modifyHead (s : Stack) (v : Nat) (f : Head → Head) : Stack :=
  { s with heads := s.heads.modify v f }

/-- Gives a version up. -/
def halt (s : Stack) (v : Nat) : Stack := s.modifyHead v fun h => { h with status := .halted }

/-- Leaves a version out; those after it move up. -/
def remove (s : Stack) (v : Nat) : Stack := { s with heads := s.heads.eraseIdxIfInBounds v }

/-- Keeps the first versions. -/
def keep (s : Stack) (count : Nat) : Stack := { s with heads := s.heads.take count }

/-- Leaves out those of the versions from `first` on that do not go on. -/
def onlyActive (s : Stack) (first : Nat) : Stack :=
  { s with heads := s.heads.take first ++ (s.heads.drop first).filter fun h => h.status.isActive }

/-- Puts each of two versions into the place of the other. -/
def swap (s : Stack) (a b : Nat) : Stack := { s with heads := s.heads.swapIfInBounds a b }

/-- Stops a version before a token that does not fit. -/
def pause (s : Stack) (v : Nat) (lookahead : Tree) : Stack :=
  let shown := (s.top v).shown
  s.modifyHead v fun h => { h with status := .paused lookahead, shownAtError := shown }

/-- Puts a tree on a version and goes to a state. Without a tree reading is broken off. -/
def push (g : Grammar) (s : Stack) (v : Nat) (tree : Option Tree) (state : Nat) : Stack :=
  let below := s.top v
  let vertex : Vertex :=
    { state
      links := [⟨(s.head v).vertex, tree⟩]
      position := below.position + (tree.map Tree.total).getD .zero
      cost := below.cost + (tree.map Tree.cost).getD 0
      shown := below.shown + (tree.map (Tree.shownCount g)).getD 0 }
  let n := s.vertices.size
  { s with vertices := s.vertices.push vertex }.modifyHead v fun h =>
    { h with vertex := n, shownAtError := if tree.isNone then vertex.shown else h.shownAtError }

/-- A new version like another one, with its top at a vertex. -/
def addVersion (s : Stack) (v vertex : Nat) : Stack :=
  { s with heads := s.heads.push { vertex, shownAtError := (s.head v).shownAtError } }

/-- A copy of a version. -/
def copy (s : Stack) (v : Nat) : Stack :=
  { s with heads := s.heads.push { s.head v with landmarks := none } }

/-- Moves version `a` into the place of the earlier version `b`. -/
def replace (s : Stack) (a b : Nat) : Stack :=
  if a == b then s
  else
    let h := s.head a
    let h := { h with landmarks := h.landmarks.or (s.head b).landmarks }
    (s.modifyHead b fun _ => h).remove a

/-- What the errors of a version cost, one that it stands in included. -/
def cost (s : Stack) (v : Nat) : Nat :=
  let t := s.top v
  let broken := (s.head v).status.isPaused
    || (t.state == 0 && (t.links.head?.map fun l => l.tree.isNone).getD false)
  t.cost + (if broken then costs.recovery else 0)

/-- How many trees show since the last error of a version, which is never in the future. -/
def progress (s : Stack) (v : Nat) : Nat × Stack :=
  let shown := (s.top v).shown
  if shown < (s.head v).shownAtError then
    (0, s.modifyHead v fun h => { h with shownAtError := shown })
  else (shown - (s.head v).shownAtError, s)

/-- Whether two versions stand at the same point at the same cost. -/
def canMerge (s : Stack) (a b : Nat) : Bool :=
  (s.head a).status.isActive && (s.head b).status.isActive
    && s.state a == s.state b && (s.position a).bytes == (s.position b).bytes
    && (s.top a).cost == (s.top b).cost

/-- Adds a link to a vertex. Links that make no difference become one, all the way down. -/
def addLink (g : Grammar) : Nat → Array Vertex → Nat → Link → Array Vertex
  | 0, vs, _, _ => vs
  | fuel + 1, vs, n, link =>
    if link.vertex == n then vs
    else
      let v := vs[n]?.getD default
      let below := vs[link.vertex]?.getD default
      let same := v.links.find? fun l =>
        Tree.interchangeable l.tree link.tree && (l.vertex == link.vertex
          || (let w := vs[l.vertex]?.getD default
              w.state == below.state && w.position.bytes == below.position.bytes
                && w.cost == below.cost))
      match same with
      | some l =>
        if l.vertex == link.vertex then vs
        else below.links.foldl (fun vs k => addLink g fuel vs l.vertex k) vs
      | none =>
        if v.links.length ≥ maxLinks then vs
        else
          let shown := below.shown + (link.tree.map (Tree.shownCount g)).getD 0
          vs.modify n fun v => { v with links := v.links ++ [link], shown := max v.shown shown }

/-- Makes one version of two, the first, if that is possible. -/
def merge (g : Grammar) (s : Stack) (a b : Nat) : Bool × Stack :=
  if s.canMerge a b then
    let n := (s.head a).vertex
    let vertices := (s.top b).links.foldl
      (fun vs l => addLink g s.vertices.size vs n l) s.vertices
    let s := { s with vertices }
    let shown := (s.top a).shown
    let s := if s.state a == 0 then s.modifyHead a fun h => { h with shownAtError := shown } else s
    (true, s.remove b)
  else (false, s)

/-- A way back from the top of a version. -/
structure Way where
  vertex : Nat
  /-- The trees passed, the deepest first. -/
  trees : List Tree
  /-- How many trees were passed, extra ones left out. -/
  depth : Nat

/-- What to do at a vertex on the way back. -/
structure Verdict where
  /-- Whether the way is wanted up to here. -/
  take : Bool
  /-- Whether the way ends here. -/
  stop : Bool

/-- The way back along a link. -/
def Way.along (w : Way) (l : Link) : Way :=
  match l.tree with
  | some t => ⟨l.vertex, t :: w.trees, if t.isExtra then w.depth else w.depth + 1⟩
  | none => ⟨l.vertex, w.trees, w.depth + 1⟩

/-- Trees taken off a version, and the version that is left without them. -/
structure Slice where
  trees : List Tree
  version : Nat

/-- Adds a slice behind those that end at the same vertex, else with a version of its own. -/
def addSlice (s : Stack) (v : Nat) (w : Way) (slices : List Slice) : Stack × List Slice :=
  let hits := slices.zipIdx.filter fun (x, _) => (s.head x.version).vertex == w.vertex
  match hits.getLast? with
  | some (x, i) =>
    (s, slices.take (i + 1) ++ ⟨w.trees, x.version⟩ :: slices.drop (i + 1))
  | none => (s.addVersion v w.vertex, slices ++ [⟨w.trees, s.heads.size⟩])

/--
Follows the ways back from a version, all of them one step in each round, and takes those
that are wanted. `visit` sees each way in turn and carries a value along.
-/
def walk {σ : Type} (s : Stack) (v : Nat) (init : σ) (visit : σ → Vertex → Way → σ × Verdict) :
    Stack × σ × List Slice := Id.run do
  let mut s := s
  let mut value := init
  let mut slices : List Slice := []
  let mut ways : List Way := [⟨(s.head v).vertex, [], 0⟩]
  for _ in [0 : s.vertices.size + 2] do
    if ways.isEmpty then return (s, value, slices)
    let mut left := ways.length
    let mut kept : List Way := []
    let mut branches : List Way := []
    for w in ways do
      let vertex := s.vertex w.vertex
      let (next, verdict) := visit value vertex w
      value := next
      if verdict.take then
        let (s', slices') := s.addSlice v w slices
        s := s'
        slices := slices'
      match vertex.links with
      | [] => left := left - 1
      | first :: others =>
        if verdict.stop then left := left - 1
        else
          let room := maxWays - (left + branches.length)
          branches := branches ++ (others.take room).map w.along
          kept := kept ++ [w.along first]
    ways := kept ++ branches
  return (s, value, slices)

/-- Takes `count` trees, and the extra ones among them, off a version. -/
def popCount (s : Stack) (v count : Nat) : Stack × List Slice :=
  let (s, _, slices) := s.walk v () fun _ _ w =>
    ((), ⟨w.depth == count, w.depth == count⟩)
  (s, slices)

/-- Takes all trees off a version. -/
def popAll (s : Stack) (v : Nat) : Stack × List Slice :=
  let (s, _, slices) := s.walk v () fun _ vertex _ => ((), ⟨vertex.links.isEmpty, false⟩)
  (s, slices)

/-- Takes an error off the top of a version. -/
def popError (s : Stack) (v : Nat) : Stack × Option Tree :=
  let found := (s.top v).links.findSome? fun l =>
    l.tree.bind fun t => if t.isError then some (l.vertex, t) else none
  match found with
  | some (n, t) => (s.modifyHead v fun h => { h with vertex := n, status := .active }, some t)
  | none => (s, none)

/-- How far back a recovery looks. -/
def maxDepth : Nat := 16

/-- Notes the places to which a recovery of a version may go back. -/
def markLandmarks (s : Stack) (v : Nat) : Stack :=
  let (s, marks, _) := s.walk v [] fun (marks : List Landmark) vertex w =>
    if w.depth > maxDepth then (marks, ⟨false, true⟩)
    else if (marks.takeWhile fun m => m.depth ≥ w.depth).any fun m =>
        m.depth == w.depth && m.state == vertex.state then (marks, ⟨false, false⟩)
    else (⟨vertex.position, w.depth, vertex.state⟩ :: marks, ⟨false, false⟩)
  s.modifyHead v fun h => { h with landmarks := some marks.reverse }

end Stack

end CssNest.Syntax
