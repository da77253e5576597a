import CssNest.Grammar.Basic
import CssNest.Grammar.TokenSet

/-!
# Lexica

A lexicon holds the positions of all token patterns of a grammar. A scan stands in a
set of positions that may come next, together with the tokens that are complete. The
longest text wins, unless a token of higher precedence is complete before.
-/

namespace CssNest.Grammar

/-- A place in the pattern of a token. -/
structure Position where
  token : Nat
  cls : CharClass
  /-- Whether the place is the blanks before the token. -/
  separator : Bool
  precedence : Int
  /-- The places that can come after this one. -/
  next : List Nat
  /-- Whether the token is complete after this place. -/
  accepts : Bool
deriving Inhabited

/-- Where a scan stands: the places that may come next, and the complete tokens. -/
structure Scan where
  live : List Nat
  complete : List Nat
deriving DecidableEq, Hashable, Inhabited

/-- What a character does to a scan. -/
structure Move where
  scan : Scan
  /-- Whether the character belongs to the blanks before every token that is left. -/
  separator : Bool
  precedence : Int

end CssNest.Grammar

namespace CssNest

open Grammar

/-- The positions of all patterns, and those at which each token starts. -/
structure Lexicon where
  tokens : Array TokenSpec
  positions : Array Position
  starts : Array (List Nat)

namespace Lexicon

/-- Puts a number into its place of an ascending list. -/
def insertNumber (n : Nat) : List Nat → List Nat
  | [] => [n]
  | m :: rest => if n < m then n :: m :: rest else if n == m then m :: rest
                 else m :: insertNumber n rest

/-- The numbers of a list in ascending order, each once. -/
def ascending (ns : List Nat) : List Nat := ns.foldl (fun acc n => insertNumber n acc) []

/-- The lexicon with one more token. -/
def push (blanks : CharClass) (lx : Lexicon) (spec : TokenSpec) : Lexicon :=
  let token := lx.tokens.size
  let base := lx.positions.size
  match spec.pattern with
  | none => { lx with tokens := lx.tokens.push spec, starts := lx.starts.push [] }
  | some pattern =>
    let f := pattern.fragment (if spec.immediate then base else base + 1)
    let separators : List Position :=
      if spec.immediate then []
      else [⟨token, blanks, true, 0, ascending (base :: f.first), false⟩]
    let places : List Position := f.classes.mapIdx fun i cls =>
      let p := i + (if spec.immediate then base else base + 1)
      ⟨token, cls, false, spec.precedence, ascending (f.successors p), f.last.contains p⟩
    { tokens := lx.tokens.push spec
      positions := lx.positions ++ separators ++ places
      starts := lx.starts.push
        (ascending (if spec.immediate then f.first else base :: f.first)) }

/-- The lexicon of a grammar. -/
def ofGrammar (g : Grammar) : Lexicon :=
  g.tokens.foldl (push g.blanks) ⟨#[], #[], #[]⟩

/-- The positions of a scan. -/
def places (lx : Lexicon) (s : Scan) : List Position :=
  s.live.filterMap fun p => lx.positions[p]?

/-- Where a scan for some tokens starts. -/
def start (lx : Lexicon) (tokens : List Nat) : Scan :=
  ⟨ascending (tokens.flatMap fun t => lx.starts[t]?.getD []), []⟩

/-- The precedence of a token. -/
def precedence (lx : Lexicon) (t : Nat) : Int := (lx.tokens[t]?.map (·.precedence)).getD 0

/-- The rank of a token. -/
def rank (lx : Lexicon) (t : Nat) : Nat := (lx.tokens[t]?.map (·.rank)).getD 0

/-- Whether of two complete tokens the first is taken. -/
def prefers (lx : Lexicon) (a b : Nat) : Bool :=
  if lx.precedence a != lx.precedence b then lx.precedence b < lx.precedence a
  else if lx.rank a != lx.rank b then lx.rank b < lx.rank a
  else a < b

/-- The complete token that is taken. -/
def best? (lx : Lexicon) (s : Scan) : Option Nat :=
  s.complete.foldl (fun found t =>
    match found with
    | none => some t
    | some u => if lx.prefers u t then some u else some t) none

/-- Whether blanks may still come before some token. -/
def awaitsBlanks (lx : Lexicon) (s : Scan) : Bool := (lx.places s).any (·.separator)

/-- Reads one character. -/
def move? (lx : Lexicon) (s : Scan) (c : Nat) : Option Move :=
  match (lx.places s).filter fun p => p.cls.contains c with
  | [] => none
  | hit :: hits =>
    let all := hit :: hits
    some {
      scan := ⟨ascending (all.flatMap (·.next)),
        ascending (all.filterMap fun p => if p.accepts then some p.token else none)⟩
      separator := all.all (·.separator)
      precedence := hits.foldl (fun m p => max m p.precedence) hit.precedence }

/-- The tokens that a scan can still become. -/
def candidates (lx : Lexicon) (s : Scan) : List Nat :=
  ascending ((lx.places s).map (·.token) ++ s.complete)

/--
Whether reading on is better than stopping at a complete token: not at the price of
precedence, and not for blanks.
-/
def goesOn (lx : Lexicon) (s : Scan) (complete : Nat) (m : Move) : Bool :=
  if m.precedence < lx.precedence complete then false
  else if m.precedence == lx.precedence complete then
    !m.separator && !(lx.awaitsBlanks s && !(lx.candidates m.scan).contains complete)
  else true

end Lexicon

end CssNest
