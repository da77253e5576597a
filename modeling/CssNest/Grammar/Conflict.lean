import CssNest.Grammar.Lexicon
import Std.Data.HashSet

/-!
# Conflicts between tokens

Two tokens that are looked for at one place can get in each other's way: both may fit
a text, or one may fit a text that goes on where the other ends. The relation is found
by scanning for the two tokens together and looking at every state that is reached.
-/

namespace CssNest.Grammar

/-- How a token stands to another one when both are looked for. -/
structure Conflict where
  /-- It is complete and wins although the other could go on. -/
  endsBefore : Bool := false
  /-- It goes on after the other is complete. -/
  goesOn : Bool := false
  /-- It goes on with a character that may also follow the other. -/
  goesOnFreely : Bool := false
  /-- It fits blanks that may stand before the other. -/
  takesBlanks : Bool := false
  /-- It wins a text that both fit. -/
  sameText : Bool := false
deriving Inhabited

namespace Conflict

/-- Either relation. -/
def or (a b : Conflict) : Conflict :=
  ⟨a.endsBefore || b.endsBefore, a.goesOn || b.goesOn, a.goesOnFreely || b.goesOnFreely,
    a.takesBlanks || b.takesBlanks, a.sameText || b.sameText⟩

end Conflict

/-- The relations of all ordered pairs of tokens. -/
structure Conflicts where
  table : Array (Array Conflict)

namespace Conflicts

/-- How token `i` stands to token `j`. -/
def get (cs : Conflicts) (i j : Nat) : Conflict := ((cs.table[i]?.getD #[])[j]?).getD {}

/-- Whether `i` cannot be looked for where only `j` was. -/
def clashes (cs : Conflicts) (i j : Nat) : Bool :=
  let c := cs.get i j
  c.goesOnFreely || c.takesBlanks || c.sameText

/-- Whether `i` ever takes text that could be of `j`. -/
def overlaps (cs : Conflicts) (i j : Nat) : Bool :=
  let c := cs.get i j
  c.takesBlanks || c.endsBefore || c.sameText || c.goesOn

/-- Whether `i` takes longer texts than `j` does. -/
def outgrows (cs : Conflicts) (i j : Nat) : Bool :=
  let c := cs.get i j
  (c.goesOnFreely || c.takesBlanks) && !(cs.get j i).takesBlanks

/-- The ranges of code points that no class of the positions cuts. -/
def intervals (places : List Position) : List (Nat × Nat) :=
  let cuts := Lexicon.ascending
    (places.flatMap fun p => p.cls.flatMap fun r => [r.1, r.2 + 1])
  cuts.zipWith (fun lo hi => (lo, hi - 1)) (cuts.drop 1)

/-- A pair of relations, that of the first token to the second and the converse. -/
abbrev Pair := Conflict × Conflict

/-- A pair where `c` holds of the token `t`, which is one of the two. -/
def side (i t : Nat) (c : Conflict) : Pair := if t == i then (c, {}) else ({}, c)

/-- Both pairs. -/
def both (a b : Pair) : Pair := (a.1.or b.1, a.2.or b.2)

/-- What the complete tokens of one state say. -/
def atState (lx : Lexicon) (i : Nat) (s : Scan) : Pair :=
  let blanks := if lx.awaitsBlanks s then
      s.complete.foldl (fun p t => both p (side i t { takesBlanks := true })) ({}, {})
    else ({}, {})
  match s.complete, lx.best? s with
  | _ :: _ :: _, some t => both blanks (side i t { sameText := true })
  | _, _ => blanks

/-- What one way out of a state says; `none` also when the way is not worth following. -/
def atMove (lx : Lexicon) (following : Array CharClass) (i j : Nat) (s : Scan)
    (range : Nat × Nat) (m : Move) : Pair × Bool :=
  match lx.best? s with
  | none => (({}, {}), true)
  | some complete =>
    match (lx.candidates m.scan).filter (· != complete) with
    | [] => (({}, {}), true)
    | other :: _ =>
      if (lx.candidates m.scan).contains complete then (({}, {}), true)
      else if lx.goesOn s complete m then
        let after := (following[if other == i then j else i]?).getD []
        let free := CharClass.overlaps [range] after
        (side i other { goesOn := true, goesOnFreely := free }, true)
      else (side i complete { endsBefore := true }, false)

/-- How two tokens stand to each other. The number of states bounds the search. -/
def compare (lx : Lexicon) (following : Array CharClass) (i j : Nat) : Pair := Id.run do
  let mut result : Pair := ({}, {})
  let mut seen : Std.HashSet Scan := {}
  let mut todo : List Scan := [lx.start [i, j]]
  for _ in [0 : lx.positions.size * lx.positions.size] do
    match todo with
    | [] => return result
    | s :: rest =>
      todo := rest
      -- with one token left there is nothing to compare
      if (lx.candidates s).length ≥ 2 then
        result := both result (atState lx i s)
        for range in intervals (lx.places s) do
          match lx.move? s range.1 with
          | none => pure ()
          | some m =>
            let (said, follow) := atMove lx following i j s range m
            result := both result said
            if follow && !seen.contains m.scan then
              seen := seen.insert m.scan
              todo := m.scan :: todo
  return result

/-- The relations of all pairs, given the characters that may follow each token. -/
def ofLexicon (lx : Lexicon) (following : Array CharClass) : Conflicts := Id.run do
  let n := lx.tokens.size
  let mut table : Array (Array Conflict) := Array.replicate n (Array.replicate n {})
  for i in [0 : n] do
    for j in [0 : i] do
      let (a, b) := compare lx following i j
      table := (table.modify i (·.setIfInBounds j a)).modify j (·.setIfInBounds i b)
  return ⟨table⟩

end Conflicts

end CssNest.Grammar
