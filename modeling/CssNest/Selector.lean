import CssNest.Text.Blank
import CssNest.Text.Quote

/-!
# Selector paths

A flat selector is nested along a path of segments: `html > body p:hover` becomes
`html`, `>body`, `p`, `&:hover`. The child combinator gets one spelling, and
pseudo-classes and sibling combinators get the parent marker `&`, so that they
attach to the enclosing block without a space.

The steps work on lists of characters; `path` puts them together for strings.
-/

namespace CssNest.Selector

open Text

/-- A child combinator loses one space after it. -/
def tightenChild : List Char → List Char
  | '>' :: ' ' :: rest => '>' :: tightenChild rest
  | c :: rest => c :: tightenChild rest
  | [] => []

/-- A child combinator gets one more space before it. -/
def spaceBeforeChild (cs : List Char) : List Char :=
  cs.flatMap fun c => if c == '>' then [' ', '>'] else [c]

/-- The one spelling of the child combinator: a space before `>` and none after. -/
def normalizeChild (cs : List Char) : List Char := spaceBeforeChild (tightenChild cs)

/-- Whether a scan that stood in brackets (`nested`) still does after `c`. -/
def nestedAfter (nested : Bool) (c : Char) : Bool :=
  !(c == ')' || c == ']') && (c == '(' || c == '[' || nested)

/--
The scan behind `markPseudo`. One flag stands for any depth of brackets, so the
first closing bracket ends it. `marked` says that the last character was a colon
that got a marker.
-/
def markPseudoFrom (nested marked : Bool) : List Char → List Char
  | [] => []
  | c :: rest =>
    let inside := nestedAfter nested c
    if !inside && c == ':' && !marked then ' ' :: '&' :: c :: markPseudoFrom inside true rest
    else c :: markPseudoFrom inside false rest

/-- ` &` before every colon outside brackets; the two colons of `::` get one marker. -/
def markPseudo (cs : List Char) : List Char := markPseudoFrom false false cs

/--
The scan behind `markCombinators`: the open quote, the depth of brackets, and
whether spaces are dropped because a combinator was just written.
-/
def markCombinatorsFrom (combinators : List Char) (q : Quote) (depth : Nat) (skip : Bool) :
    List Char → List Char
  | [] => []
  | c :: rest =>
    if c == ' ' && skip then markCombinatorsFrom combinators q depth true rest
    else match q with
      | some _ => c :: markCombinatorsFrom combinators (q.after c) depth false rest
      | none =>
        if isQuote c then c :: markCombinatorsFrom combinators (some c) depth false rest
        else if c == '(' || c == '[' then
          c :: markCombinatorsFrom combinators none (depth + 1) false rest
        else if c == ')' || c == ']' then
          c :: markCombinatorsFrom combinators none (depth - 1) false rest
        else if depth == 0 && combinators.contains c then
          '&' :: c :: markCombinatorsFrom combinators none depth true rest
        else c :: markCombinatorsFrom combinators none depth false rest

/--
`&` before each of the `combinators` that stands outside quotes and brackets, and no
spaces after it. Inside brackets `2n+1` and `~=` are left alone.
-/
def markCombinators (combinators : List Char) (cs : List Char) : List Char :=
  markCombinatorsFrom combinators none 0 false cs

/-- The combinators that attach to their parent by a marker. -/
def attaching : List Char := ['+', '~']

/-- A finished segment, dropped when nothing is left of it after trimming. -/
def finish (reversed : List Char) : List (List Char) :=
  let segment := trim reversed.reverse
  if segment.isEmpty then [] else [segment]

/-- The scan behind `segments`; the segment being read is held in reverse. -/
def segmentsFrom (q : Quote) (current : List Char) : List Char → List (List Char)
  | [] => finish current
  | c :: rest =>
    if isBlank c && q.isNone then finish current ++ segmentsFrom q [] rest
    else segmentsFrom (q.after c) (c :: current) rest

/-- The parts of a selector between its blanks; blanks inside quotes do not split. -/
def segments (cs : List Char) : List (List Char) := segmentsFrom none [] cs

/-- The nesting path of a selector, as character lists. -/
def pathChars (cs : List Char) : List (List Char) :=
  segments (markCombinators attaching (markPseudo (normalizeChild cs)))

/-- The nesting path of a selector. -/
def path (selector : String) : List String := (pathChars selector.toList).map String.ofList

end CssNest.Selector
