import CssNest.Grammar.Item

/-!
# Parse tables

The states of the parser are sets of items, each with the tokens that may follow it. A
state says for each token what to do. Where a rule could end as well as go on, the
precedences decide, then the grouping of operators; a repetition may both end and go
on, and then it ends.
-/

namespace CssNest.Grammar

/-- What to do with a token. -/
inductive Action where
  /-- Take the token. A repetition that could also end is never continued this way. -/
  | shift (state : Nat) (repeats : Bool)
  /-- Take a token that may stand anywhere. -/
  | extra
  /-- The last `count` nodes are the parts of a rule. -/
  | reduce (rule count : Nat) (aliases : List (Option Kind))
  | accept
  /-- Skip the token in search of a place to go on. -/
  | recover
deriving DecidableEq, Inhabited

/-- A state of the parser. -/
structure State where
  /-- The actions for each token and, last, for the end of the source. -/
  actions : Array (List Action)
  /-- The state after each rule. -/
  gotos : Array (Option Nat)
  /-- States with the same number have the same items. -/
  core : Nat
deriving Inhabited

namespace State

/-- The actions for a token. -/
def action (s : State) (t : Nat) : List Action := s.actions[t]?.getD []

/-- Whether there is anything to do with a token. -/
def accepts (s : State) (t : Nat) : Bool := !(s.action t).isEmpty

/-- The state after a rule. -/
def goto? (s : State) (rule : Nat) : Option Nat := s.gotos[rule]?.join

/-- The tokens of the state, the end of the source included. -/
def tokens (s : State) : List Nat := (List.range s.actions.size).filter s.accepts

/-- In how many ways the state can go on. -/
def size (s : State) : Nat := s.tokens.length + (s.gotos.toList.filter Option.isSome).length

end State

/-- The items that a state starts from, with the tokens that may follow each. -/
abbrev Kernel := List (Nat × TokenSet)

namespace Items

/-- Every item of a state, with the tokens that may follow it. -/
def closure (is : Items) (kernel : Kernel) : Array (Option TokenSet) :=
  let add (acc : Array (Option TokenSet)) (i : Nat) (follow : TokenSet) :=
    acc.modify i fun o => some ((o.getD .empty).union follow)
  kernel.foldl (fun acc (i, follow) =>
    let acc := match is.items[i]?.map (·.rest) with
      | some ({ symbol := .rule r, .. } :: rest) =>
        let outside := match rest with
          | next :: _ => is.firstOf next.symbol
          | [] => follow
        (is.openings[r]?.getD []).foldl (fun acc o =>
          add acc o.item (if o.inherits then o.follow.union outside else o.follow)) acc
      | _ => acc
    add acc i follow) (Array.replicate is.items.size none)

/-- The items of a closure with their numbers and followers. -/
def listed (is : Items) (closure : Array (Option TokenSet)) : List (Nat × Item × TokenSet) :=
  closure.toList.zipIdx.filterMap fun (o, i) => do
    let follow ← o
    let item ← is.items[i]?
    some (i, item, follow)

/-- The precedence of a rule. -/
def precedence (is : Items) (rule : Nat) : Int :=
  (is.grammar.rules[rule]?.map (·.precedence)).getD 0

/-- Whether a rule groups to the left. -/
def isLeft (is : Items) (rule : Nat) : Bool :=
  (is.grammar.rules[rule]?.map (·.leftAssociative)).getD false

/-- Whether a rule is a repetition. -/
def isRepetition (is : Items) (rule : Nat) : Bool :=
  (is.grammar.rules[rule]?.map (·.repetition)).getD false

/-- The action for the end of an item. -/
def ending (is : Items) (i : Item) : Action :=
  if i.rule < is.grammar.rules.size then .reduce i.rule i.passed.length i.passed else .accept

/-- The rules that can end before a token: those of the highest precedence. -/
def endings (is : Items) (all : List (Nat × Item × TokenSet)) (t : Nat) : List Item :=
  let done := all.filterMap fun (_, i, follow) =>
    if i.rest.isEmpty && follow.contains t then some i else none
  let top := done.foldl (fun m i => max m (is.precedence i.rule))
    ((done.head?.map fun i => is.precedence i.rule).getD 0)
  done.filter fun i => is.precedence i.rule == top

/-- The actions for a token that can be taken, going to `target`, when rules can also end. -/
def resolve (is : Items) (all : List (Nat × Item × TokenSet)) (t target : Nat)
    (ends : List Item) : List Action :=
  let goingOn := all.filterMap fun (_, i, _) =>
    match i.rest with
    | step :: _ =>
      if !i.passed.isEmpty && (is.firstOf step.symbol).contains t then some i.rule else none
    | [] => none
  let ending := all.filterMap fun (_, i, follow) =>
    if i.rest.isEmpty && follow.contains t && i.rule < is.grammar.rules.size then some i.rule
    else none
  let reductions := ends.map is.ending
  let involved := goingOn.filter (· < is.grammar.rules.size) ++ ending
  if ends.isEmpty then [.shift target false]
  else if involved.all fun r => is.isRepetition r && some r == involved.head? then
    reductions ++ [.shift target true]
  else
    let against := (ends.head?.map fun i => is.precedence i.rule).getD 0
    let more := goingOn.any fun r => against < is.precedence r
    let less := goingOn.any fun r => is.precedence r < against
    if more && !less then [.shift target false]
    else if less && !more then reductions
    else if !more && !less && ends.all fun i => is.isLeft i.rule then reductions
    else reductions ++ [.shift target false]

/-- The items after a symbol. -/
def successors (is : Items) (all : List (Nat × Item × TokenSet)) (s : Symbol) : Kernel :=
  let moved := all.filterMap fun (n, i, follow) =>
    match i.rest with
    | step :: _ => if step.symbol == s then some (is.after[n]?.getD 0, follow) else none
    | [] => none
  moved.foldl (fun kernel (n, follow) => place n follow kernel) []
where
  place (n : Nat) (follow : TokenSet) : Kernel → Kernel
    | [] => [(n, follow)]
    | (m, old) :: rest =>
      if n < m then (n, follow) :: (m, old) :: rest
      else if n == m then (m, old.union follow) :: rest
      else (m, old) :: place n follow rest

end Items

/-- The states found so far: what each starts from, and those that are worked out. -/
structure Draft where
  kernels : Array Kernel := #[]
  numbers : Std.HashMap Kernel Nat := {}
  cores : Std.HashMap (List Nat) Nat := {}
  states : Array State := #[]

namespace Draft

/-- The number of the state that starts from a kernel, which may be a new one. -/
def number (d : Draft) (k : Kernel) : Nat × Draft :=
  match d.numbers[k]? with
  | some n => (n, d)
  | none =>
    let n := d.kernels.size
    (n, { d with kernels := d.kernels.push k, numbers := d.numbers.insert k n })

/-- The number of the core of a kernel. -/
def core (d : Draft) (k : Kernel) : Nat × Draft :=
  let items := k.map Prod.fst
  match d.cores[items]? with
  | some n => (n, d)
  | none => (d.cores.size, { d with cores := d.cores.insert items d.cores.size })

/-- Works out the next state; its successors become new states. -/
def work (is : Items) (d : Draft) (kernel : Kernel) : Draft := Id.run do
  let g := is.grammar
  let mut d := d
  let all := is.listed (is.closure kernel)
  let ahead := g.tokenIndices.filter fun t => !g.isPatterned t
  let patterned := g.tokenIndices.filter g.isPatterned
  let mut actions : Array (List Action) := Array.replicate (g.endToken + 1) []
  let mut gotos : Array (Option Nat) := Array.replicate g.rules.size none
  for t in ahead ++ patterned ++ [g.endToken] do
    let ends := is.endings all t
    match is.successors all (.token t) with
    | [] => actions := actions.setIfInBounds t (ends.map is.ending)
    | kernel =>
      let (target, d') := d.number kernel
      d := d'
      actions := actions.setIfInBounds t (is.resolve all t target ends)
  for r in List.range g.rules.size do
    match is.successors all (.rule r) with
    | [] => pure ()
    | kernel =>
      let (target, d') := d.number kernel
      d := d'
      gotos := gotos.setIfInBounds r (some target)
  for t in g.extras do
    actions := actions.modify t fun as => if as.isEmpty then [.extra] else as
  let (core, d') := d.core kernel
  return { d' with states := d'.states.push ⟨actions, gotos, core⟩ }

/-- Works out states until none is left, or `limit` of them are done. -/
def run (is : Items) (limit : Nat) (d : Draft) : Draft := Id.run do
  let mut d := d
  for n in [0 : limit] do
    match d.kernels[n]? with
    | none => return d
    | some kernel => d := d.work is kernel
  return d

/-- More states than the parser of a grammar of this size has. -/
def limit : Nat := 100000

end Draft

/--
The states of a grammar before anything is merged. State 0 starts from nothing: it is
where a source that cannot be read is skipped. State 1 is the start.
-/
def states (is : Items) : Array State :=
  let start := is.items.findIdx fun i => i.rule == is.grammar.rules.size
  let (_, d) := Draft.number {} []
  let (_, d) := d.number [(start, .singleton is.grammar.endToken)]
  (d.run is Draft.limit).states

end CssNest.Grammar
