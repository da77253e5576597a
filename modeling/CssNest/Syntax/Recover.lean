import CssNest.Syntax.Reduce

/-!
# Recovery from errors

A token that does not fit has three ways out: a token may be missing before it, the trees
since an earlier point may be given up, or it may be skipped. What each costs decides
which versions of the stack are worth following.
-/

namespace CssNest.Syntax

open Grammar ParseM

/-- How good a version of the stack is. -/
structure Standing where
  cost : Nat
  progress : Nat
  inError : Bool

/-- How two versions compare. -/
inductive Preference where
  /-- The left one is so much better that the right one is given up. -/
  | takeLeft
  | preferLeft
  | neither
  | preferRight
  | takeRight
deriving DecidableEq

namespace Standing

/-- Compares two versions. Progress since an error makes a difference in cost count for more. -/
def compare (a b : Standing) : Preference :=
  if !a.inError && b.inError then if a.cost < b.cost then .takeLeft else .preferLeft
  else if a.inError && !b.inError then if b.cost < a.cost then .takeRight else .preferRight
  else if a.cost < b.cost then
    if (b.cost - a.cost) * (1 + a.progress) > costs.tolerance then .takeLeft else .preferLeft
  else if b.cost < a.cost then
    if (a.cost - b.cost) * (1 + b.progress) > costs.tolerance then .takeRight else .preferRight
  else .neither

end Standing

/-- How many trees show since the last error of a version. -/
def progressOf (v : Nat) : ParseM Nat := runStack fun s => s.progress v

/-- How good a version is. -/
def standing (v : Nat) : ParseM Standing := do
  let progress ← progressOf v
  let s ← stack
  let paused := (s.head v).status.isPaused
  return ⟨s.cost v + (if paused then costs.skippedTree else 0), progress, paused || s.state v == 0⟩

/-- Whether a better version exists than `v` would be at some cost. -/
def isOutdone (v cost : Nat) : ParseM Bool := do
  if ((← get).finished.map fun t => decide (t.cost ≤ cost)).getD false then return true
  let progress ← progressOf v
  let position := (← stack).position v
  for i in List.range (← stack).size do
    let s ← stack
    if i != v && (s.head i).status.isActive && (s.position i).bytes ≥ position.bytes then
      match Standing.compare ⟨cost, progress, false⟩ (← standing i) with
      | .takeRight => return true
      | .preferRight => if s.canMerge i v then return true
      | _ => pure ()
  return false

/-- Gives up the last `depth` trees of a version, if it then is in the state `goal`. -/
def goBack (v depth goal : Nat) : ParseM Bool := do
  let g ← grammar
  let slices ← runStack fun s =>
    let (s, slices) := s.popCount v depth
    (slices, s)
  let mut last : Option Nat := none
  for slice in slices do
    if last == some slice.version then continue
    if (← stack).state slice.version != goal then
      modifyStack fun s => s.halt slice.version
      continue
    -- an error just before grows
    let earlier ← runStack fun s =>
      let (s, error) := s.popError slice.version
      (error, s)
    let trees := (earlier.map Tree.parts).getD [] ++ slice.trees
    let (lost, trailing) := Tree.splitExtras trees
    if !lost.isEmpty then
      push slice.version (some ((Tree.node g .error [] lost).withExtra true)) goal
    for t in trailing do push slice.version (some t) goal
    last := some slice.version
  return last.isSome

/-- Whether a token may stand anywhere. -/
def mayStandAnywhere (a : Automaton) (label : Label) : Bool :=
  (a.actions 1 label).getLast? == some .extra

/-- The number of the token that a tree is. -/
def Tree.token? (t : Tree) : Option Nat :=
  match t.label with
  | .symbol (.token n) => some n
  | _ => none

/-- Looks for the nearest landmark at which the token fits, and goes back to it. -/
def goBackFor (v : Nat) (lookahead : Tree) : ParseM Bool := do
  let a := (← read).automaton
  let versions := (← stack).size
  let progress ← progressOf v
  let s ← stack
  let here := s.position v
  let cost := s.cost v
  if lookahead.isError then return false
  for m in (s.head v).landmarks.getD [] do
    if m.state == 0 || m.position.bytes == here.bytes then continue
    let s ← stack
    if (List.range versions).any fun j =>
        s.state j == m.state && (s.position j).bytes == here.bytes then continue
    let worse := cost + m.depth * costs.skippedTree
      + (here.bytes - m.position.bytes) * costs.skippedByte
      + (here.lines - m.position.lines) * costs.skippedLine
    if ← isOutdone v worse then return false
    if !(a.actions m.state lookahead.label).isEmpty then
      if ← goBack v (if progress > 0 then m.depth + 1 else m.depth) m.state then return true
  return false

/-- Skips a token on a version that is in an error. -/
def skip (v : Nat) (lookahead : Tree) (extend : Bool) : ParseM Unit := do
  let a := (← read).automaton
  let g := a.grammar
  let token := if mayStandAnywhere a lookahead.label then lookahead.withExtra true else lookahead
  let mut skipped := Tree.node g .skipped [] [token]
  if extend then
    let slices ← runStack fun s =>
      let (s, slices) := s.popCount v 1
      (slices, s)
    if let some slice := slices.head? then
      if slices.length > 1 then
        modifyStack fun s => s.keep (slice.version + 1)
      modifyStack fun s => s.replace slice.version v
      skipped := Tree.node g .skipped [] (slice.trees ++ [skipped])
  push v (some skipped) 0

/-- Goes on with a version that is in an error. -/
def recover (v : Nat) (lookahead : Tree) : ParseM Unit := do
  let g ← grammar
  let versions := (← stack).size
  let progress ← progressOf v
  let cost := (← stack).cost v
  let wentBack ← goBackFor v lookahead
  modifyStack fun s => s.onlyActive versions
  if lookahead.token? == some g.endToken then
    push v (some (Tree.node g .error [] [])) 1
    accept v lookahead
  else if wentBack && (← stack).size > maxVersions then modifyStack fun s => s.halt v
  else
    let worse := cost + costs.skippedTree + lookahead.total.bytes * costs.skippedByte
      + lookahead.total.lines * costs.skippedLine
    if ← isOutdone v worse then modifyStack fun s => s.halt v
    else skip v lookahead (progress > 0)

/-- Tries whether one missing token would make the next one fit. -/
def supplyMissing (v : Nat) (lookahead : Tree) (limit : Nat) : ParseM Bool := do
  let a := (← read).automaton
  let state := (← stack).state v
  for m in a.grammar.tokenIndices do
    let next := a.afterToken state m
    if next == 0 || next == state then continue
    if let some (.reduce ..) := (a.actions next lookahead.label).head? then
      let version := (← stack).size
      modifyStack fun s => s.copy v
      push version (some (Tree.missing m)) next
      -- the end of the source stands for any token here
      let token := lookahead.token?.filter (· != a.grammar.endToken)
      if ← reduceAll version token limit then return true
  return false

/-- Starts the recovery of a version before a token that does not fit. -/
def handleError (v : Nat) (lookahead : Tree) (limit : Nat) : ParseM Unit := do
  let first := (← stack).size
  let _ ← reduceAll v none limit
  let last := (← stack).size
  let mut supplied := false
  for w in v :: (List.range last).drop first do
    if !supplied then supplied ← supplyMissing w lookahead limit
    push w none 0
  for _ in [first : last] do
    let _ ← merge v first
  modifyStack fun s => s.markLandmarks v
  recover v lookahead

end CssNest.Syntax
