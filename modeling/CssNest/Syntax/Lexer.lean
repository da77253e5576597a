import CssNest.Grammar.Automaton
import CssNest.Grammar.Css
import CssNest.Syntax.Tree

/-!
# Reading tokens

What counts as a token depends on the state of the parser. Where none of the tokens of
the state stands, any token will do, and if there is none either, characters are passed
over until one comes.
-/

namespace CssNest.Syntax

open Grammar

/-- A token found in the source. -/
structure Found where
  token : Nat
  start : Nat
  stop : Nat

/-- The outcome of a scan: a token, or where it would have started and where it stopped. -/
inductive Scanned where
  | found (f : Found)
  | stuck (start stop : Nat)

/--
Scans from `pos` on. The token starts at `start`, after the blanks; `atEnd` says that the
end of the source would do, and `best` is the longest token so far.
-/
def scanFrom (a : Automaton) (src : Source) (s : Scan) (atEnd : Bool) (start pos : Nat)
    (best : Option Found) : Scanned :=
  let lx := a.lexicon
  let complete := lx.best? s
  let best := (complete.map fun t => ⟨t, start, pos⟩).or best
  let stop : Scanned := match best with
    | some f => .found f
    | none => .stuck start pos
  if h : pos < src.size then
    match lx.step? a.wide s src[pos].toNat with
    | none => stop
    | some m =>
      scanFrom a src m.scan (atEnd && m.separator)
        (if m.separator then pos + 1 else start) (pos + 1) best
  else if atEnd then .found ⟨a.grammar.endToken, start, pos⟩
  else stop
termination_by src.size - pos

/-- Whether a character is a blank of CSS. -/
def isBlank (c : Char) : Bool := Css.Terminal.blanks.contains c.toNat

/-- Whether there is a blank at a position. -/
def blankAt (src : Source) (pos : Nat) : Bool := (src[pos]?.map isBlank).getD false

/-- The first position from `pos` on that has no blank. -/
def skipBlanks (src : Source) (pos : Nat) : Nat :=
  if h : pos < src.size then
    if isBlank src[pos] then skipBlanks src (pos + 1) else pos
  else pos
termination_by src.size - pos

/-- The first position from `pos` on with an opening brace, a closing one or a semicolon. -/
def nextMark (src : Source) (pos : Nat) : Nat :=
  if h : pos < src.size then
    let c := src[pos]
    if c == ';' || c == '\x7b' || c == '\x7d' then pos else nextMark src (pos + 1)
  else pos
termination_by src.size - pos

/-- The characters with which a descendant can start. -/
def startsDescendant (c : Char) : Bool :=
  c == '#' || c == '.' || c == '\x5b' || c == '-' || c == '*' || c.isAlphanum

/--
The blank between a selector and its descendant. A colon after it can start a
pseudo-class, if a block is opened before anything ends.
-/
def descendantAt? (src : Source) (pos : Nat) : Option (Option Found) :=
  let next := skipBlanks src pos
  let token : Found := ⟨Css.Terminal.descendant.index, next, next⟩
  match src[next]? with
  | none => none
  | some c =>
    if startsDescendant c then some (some token)
    else if c == ':' then
      if blankAt src (next + 1) then some none
      else if src[nextMark src (next + 1)]? == some '\x7b' then some (some token)
      else some none
    else none

/--
The colon of a pseudo-class. That a block is opened before anything ends tells it from
the colon of a declaration; at the end of the source it is taken for one, too.
-/
def pseudoColonAt? (src : Source) (pos : Nat) : Option Found :=
  let next := skipBlanks src pos
  if src[next]? == some ':' && src[next + 1]? != some ':' then
    let token : Found := ⟨Css.Terminal.pseudoColon.index, next, next + 1⟩
    match src[next + 1]? with
    | none => some token
    | some c =>
      if c == ';' || c == '\x7d' then none
      else match src[nextMark src (next + 2)]? with
        | none => some token
        | some m => if m == '\x7b' then some token else none
  else none

/-- The token that is found by looking ahead. -/
def lookAhead? (src : Source) (m : LexMode) (pos : Nat) : Option Found :=
  if m.recovering then none
  else
    let colon := if m.ahead.contains Css.Terminal.pseudoColon.index then pseudoColonAt? src pos
      else none
    if m.ahead.contains Css.Terminal.descendant.index && blankAt src pos then
      (descendantAt? src pos).getD colon
    else colon

/-- The byte order mark, which may stand at the very start. -/
def byteOrderMark : Char := '﻿'

/-- Where reading starts from a position. -/
def afterMark (src : Source) (pos : Nat) : Nat :=
  if pos == 0 && src[0]? == some byteOrderMark then 1 else pos

/--
Looks for a token from `pos` on in a state. `skipped` are the characters passed over
so far. Each round passes over a character or gives up the tokens of the state.
-/
def search (a : Automaton) (src : Source) (origin state pos : Nat) (skipped : Option (Nat × Nat)) :
    Nat → Found ⊕ (Nat × Nat)
  | 0 => .inr (skipped.getD (origin, origin))
  | fuel + 1 =>
    let mode := a.mode state
    let start := afterMark src pos
    match lookAhead? src mode start with
    | some f => skipped.elim (.inl f) .inr
    | none =>
      let first := a.starts[state]?.getD default
      match scanFrom a src first (mode.tokens.contains a.grammar.endToken) start start none with
      | .found f => skipped.elim (.inl f) .inr
      | .stuck begins stop =>
        if !mode.recovering then search a src origin 0 origin skipped fuel
        else
          let (first, last) := skipped.getD (begins, begins)
          if stop == last && stop ≥ src.size then .inr (first, last)
          else
            let next := if stop == last then stop + 1 else stop
            search a src origin 0 next (some (first, next)) fuel

/-- The token, or the stray characters, that follow a position in a state. -/
def readToken (a : Automaton) (src : Source) (position : Extent) (state : Nat) : Tree :=
  let origin := position.chars
  match search a src origin state origin none (2 * src.size + 4) with
  | .inl f =>
    .leaf a.grammar f.token (.between src origin f.start) (.between src f.start f.stop) state
  | .inr (first, last) =>
    .stray (.between src origin first) (.between src first last) state

end CssNest.Syntax
