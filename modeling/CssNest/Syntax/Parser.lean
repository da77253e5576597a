import CssNest.Grammar.Css
import CssNest.Syntax.Lexer
import CssNest.Syntax.Recover

/-!
# Parsing

A stylesheet without errors is read by one version of the stack. Where a token does not
fit, the version stops until the others have caught up; then the better ones go on.
-/

namespace CssNest.Syntax

open Grammar ParseM

/-- Whether a token that was read in another state would be read in this state, too. -/
def isReusable (a : Automaton) (state : Nat) (t : Tree) : Bool :=
  let mode := a.mode state
  let fits := !(a.actions state t.label).isEmpty
  if fits && mode == a.mode t.info.state then true
  else match t.token? with
    | none => false
    | some n =>
      (t.info.size.bytes > 0 || n == a.grammar.endToken) && fits
        && mode.ahead.isEmpty && !mode.recovering && (a.certain[state]?.getD .empty).contains n

/-- The token that comes next on a version. -/
def nextToken (v : Nat) : ParseM Tree := do
  let ⟨a, src⟩ ← read
  let s ← stack
  let position := s.position v
  let state := s.state v
  let known := (← get).token.bind fun (p, t) =>
    if p == position.bytes && isReusable a state t then some t else none
  match known with
  | some t => return t
  | none =>
    let t := readToken a src position state
    modify fun p => { p with token := some (position.bytes, t) }
    return t

/-- What became of the actions for a token. -/
inductive Outcome where
  /-- The token was taken, or the version ended. -/
  | done
  /-- The parts of rules were put together; the version is in a new state. -/
  | reduced (version : Option Nat)
  /-- There was nothing to do. -/
  | none

/-- Takes the actions for a token in turn. -/
def act (v : Nat) (lookahead : Tree) (actions : List Action) : ParseM Outcome := do
  let mut outcome := Outcome.none
  for x in actions do
    match x with
    | .shift _ true => pure ()
    | .shift next false =>
      push v (some (lookahead.withExtra false)) next
      return .done
    | .extra =>
      push v (some (lookahead.withExtra true)) ((← stack).state v)
      return .done
    | .reduce rule count aliases =>
      let made ← reduce v rule count aliases
      outcome := match made, outcome with
        | none, .reduced before => .reduced before
        | _, _ => .reduced made
    | .accept =>
      accept v lookahead
      return .done
    | .recover =>
      recover v lookahead
      return .done
  return outcome

/-- Reads one token on a version. -/
def advance (v limit : Nat) : ParseM Unit := do
  let a := (← read).automaton
  let lookahead ← nextToken v
  for _ in [0 : limit] do
    let state := (← stack).state v
    match ← act v lookahead (a.actions state lookahead.label) with
    | .done => return
    | .reduced (some version) => modifyStack fun s => s.replace version v
    | .reduced none =>
      modifyStack fun s => s.halt v
      return
    | .none =>
      modifyStack fun s => s.pause v lookahead
      return

/-- Leaves out the versions that are given up or much worse than others, the better ones first. -/
def rankVersions : ParseM (Option Nat) := do
  let mut least : Option Nat := none
  let mut i := 0
  for _ in [0 : (← stack).size] do
    if ((← stack).head i).status.isHalted then
      modifyStack fun s => s.remove i
      continue
    let own ← standing i
    if !own.inError then least := some (min own.cost (least.getD own.cost))
    let mut j := 0
    let mut kept := true
    for _ in [0 : i] do
      if !kept || j ≥ i then break
      match Standing.compare (← standing j) own with
      | .takeLeft =>
        modifyStack fun s => s.remove i
        kept := false
      | .preferLeft | .neither =>
        if ← merge j i then kept := false
        j := j + 1
      | .preferRight =>
        if ← merge j i then kept := false
        else modifyStack fun s => s.swap i j
        j := j + 1
      | .takeRight =>
        modifyStack fun s => s.remove j
        i := i - 1
    if kept then i := i + 1
  return least

/--
Leaves out what is not worth following and starts the recovery of a version that stopped,
if none can go on. Returns the least cost of those that go on.
-/
def condense (limit : Nat) : ParseM (Option Nat) := do
  let mut least ← rankVersions
  modifyStack fun s => s.keep maxVersions
  let mut running := false
  let mut i := 0
  for _ in [0 : (← stack).size] do
    let s ← stack
    match (s.head i).status with
    | .paused lookahead =>
      if !running && (← get).accepted < maxVersions then
        least := some (s.cost i)
        modifyStack fun s => s.modifyHead i fun h => { h with status := .active }
        handleError i lookahead limit
        running := true
        i := i + 1
      else modifyStack fun s => s.remove i
    | _ =>
      running := true
      i := i + 1
  return least

/-- Reads on with a version until it has got further than the others, or stops. -/
def catchUp (v reached limit : Nat) : ParseM Nat := do
  for _ in [0 : limit] do
    if !((← stack).head v).status.isActive then return reached
    advance v limit
    let position := ((← stack).position v).bytes
    if position > reached || (v > 0 && position == reached) then return position
  return reached

/-- Reads the whole source. -/
def parseTree (limit : Nat) : ParseM Unit := do
  let mut reached := 0
  for _ in [0 : limit] do
    let mut v := 0
    for _ in [0 : limit] do
      if v ≥ (← stack).size then break
      reached ← catchUp v reached limit
      v := v + 1
    let left := (← stack).size
    let least ← condense limit
    if let some t := (← get).finished then
      if least.all fun c => t.cost < c then return
    if left == 0 then return

end CssNest.Syntax

namespace CssNest

open Syntax

/-- A syntax tree with what it says about the source. -/
structure Parsed where
  root : Node
  /-- Whether some part of the source could not be read. -/
  hasError : Bool

/-- The syntax tree of a source. -/
def Automaton.parse (a : Automaton) (src : Source) : Parsed :=
  let ((), p) := (parseTree (64 * (src.size + 16)) ⟨a, src⟩).run { stack := .initial 1 }
  match p.finished with
  | some t =>
    match t.nodes a.grammar none 0 with
    | root :: _ => ⟨root, t.cost > 0⟩
    | [] => ⟨.mk .error ⟨0, src.size⟩ [], true⟩
  | none => ⟨.mk .error ⟨0, src.size⟩ [], true⟩

/-- The automaton of CSS. -/
def Css.automaton : Automaton := .ofGrammar Css.grammar

/-- The syntax tree of a stylesheet. -/
def Css.parse (src : Source) : Parsed := Css.automaton.parse src

end CssNest
