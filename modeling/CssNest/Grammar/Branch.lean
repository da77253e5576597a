import CssNest.Grammar.Lexicon

/-!
# Branches of a scan

The characters that can come next in a scan fall into classes, one for each place it can
go to. A scanner tests them one after the other, the smaller ones first, and takes for
granted what the tests before have ruled out.

For most characters that is the same as asking which class has the character. The null
character is the exception, because the end of the text is read as one: a class that
reaches up to the last code point is tested by the characters it lacks, and the null
character is counted among them. Only the *wide* classes, which are looked up in a table,
and classes that are tested by what they have can let a null character pass.
-/

namespace CssNest.Grammar

namespace CharClass

/-- Joins ranges that touch; they are in order. -/
def joinRanges : CharClass → CharClass
  | [] => []
  | (lo, hi) :: rest =>
    match joinRanges rest with
    | [] => [(lo, hi)]
    | (lo', hi') :: more =>
      if lo' ≤ hi + 1 then (lo, max hi hi') :: more else (lo, hi) :: (lo', hi') :: more

/-- The class as ranges in order that do not touch. -/
def normal (cls : CharClass) : CharClass := joinRanges (cls.mergeSort fun a b => a.1 ≤ b.1)

/-- The number of characters of a class in normal form. -/
def size (cls : CharClass) : Nat := cls.foldl (fun n r => n + (r.2 + 1 - r.1)) 0

/-- Whether a class in normal form has all characters from `lo` to `hi`. -/
def containsRange (cls : CharClass) (lo hi : Nat) : Bool :=
  hi < lo || cls.any fun r => r.1 ≤ lo && hi ≤ r.2

/-- The characters of both classes. -/
def inter (a b : CharClass) : CharClass :=
  normal (a.flatMap fun r => b.filterMap fun s =>
    if max r.1 s.1 ≤ min r.2 s.2 then some (max r.1 s.1, min r.2 s.2) else none)

/-- The characters of the first class that the second one lacks. -/
def diff (a b : CharClass) : CharClass := inter a (complement b)

/--
The class in as few ranges as it can be tested by once the characters of `out` are ruled
out: ranges inside `out` are left out, and ranges with only such characters between them
are joined. `before` is the range so far.
-/
def simplifyFrom (out : CharClass) (before : Option (Nat × Nat)) : CharClass → CharClass
  | [] => before.toList
  | (lo, hi) :: rest =>
    if out.containsRange lo hi then simplifyFrom out before rest
    else match before with
      | none => simplifyFrom out (some (lo, hi)) rest
      | some (lo', hi') =>
        if out.containsRange (hi' + 1) (lo - 1) then simplifyFrom out (some (lo', hi)) rest
        else (lo', hi') :: simplifyFrom out (some (lo, hi)) rest

/-- The class in as few ranges as it can be tested by once some characters are ruled out. -/
def simplify (cls out : CharClass) : CharClass := simplifyFrom out none cls

/-- Whether the first of two classes in normal form is tested before the second. -/
def comesFirst (a b : CharClass) : Bool :=
  if a.size != b.size then a.size < b.size
  else match (a.zip b).find? fun (r, s) => r != s with
    | none => true
    | some (r, s) => if r.2 - r.1 != s.2 - s.1 then r.2 - r.1 < s.2 - s.1 else r.1 < s.1

/-- The number of ranges from which on a class counts as wide. -/
def wideRanges : Nat := 8

end CharClass

/-- A class of characters that take a scan to the same place. -/
structure Branch where
  cls : CharClass
  move : Move

end CssNest.Grammar

namespace CssNest

open Grammar

namespace Lexicon

/-- The code points at which the classes of a scan start or have just ended. -/
def bounds (lx : Lexicon) (s : Scan) : List Nat :=
  ascending (0 :: (lx.places s).flatMap fun p => p.cls.flatMap fun r => [r.1, r.2 + 1])

/-- Adds a range of characters to the branch for its move. -/
def addRange (range : Nat × Nat) (m : Move) : List Branch → List Branch
  | [] => [⟨[range], m⟩]
  | b :: rest =>
    if b.move.scan == m.scan && b.move.separator == m.separator
        && b.move.precedence == m.precedence then ⟨b.cls ++ [range], b.move⟩ :: rest
    else b :: addRange range m rest

/-- The branches of a scan in the order in which they are tested. -/
def branches (lx : Lexicon) (s : Scan) : List Branch :=
  let bounds := lx.bounds s
  let ends := bounds.drop 1 ++ [CharClass.top + 1]
  let all := (bounds.zip ends).foldl (fun acc (lo, next) =>
    if lo ≤ CharClass.top then
      match lx.move? s lo with
      | some m => addRange (lo, next - 1) m acc
      | none => acc
    else acc) []
  let complete := lx.best? s
  let open_ := all.filter fun b => complete.all fun t => lx.goesOn s t b.move
  (open_.map fun b => { b with cls := b.cls.normal }).mergeSort
    fun a b => a.cls.comesFirst b.cls

/-- Adds the scans that can be reached from some by `fuel` characters. -/
def reach (lx : Lexicon) (found : List Scan) : Nat → List Scan → List Scan
  | 0, _ => found
  | _, [] => found
  | fuel + 1, fresh =>
    let next := (fresh.flatMap fun s => (lx.branches s).map (·.move.scan)).foldl
      (fun (acc : List Scan × List Scan) s =>
        if acc.1.contains s then acc else (acc.1 ++ [s], acc.2 ++ [s])) (found, [])
    reach lx next.1 fuel next.2

/-- The scans of one token. -/
def scans (lx : Lexicon) (token : Nat) : List Scan :=
  let start := lx.start [token]
  reach lx [start] (lx.positions.size + 1) [start]

/-- Adds a class to some unless it is there or has few ranges. -/
def addWide (found : List CharClass) (cls : CharClass) : List CharClass :=
  if cls.length > CharClass.wideRanges && !found.contains cls then found ++ [cls] else found

/-- The wide classes of the tokens, each as the characters with which a scan goes on. -/
def wide (lx : Lexicon) : List CharClass :=
  (List.range lx.tokens.size).foldl (fun found t =>
    (lx.scans t).foldl (fun found s =>
      let (blanks, rest) := (lx.branches s).partition (·.move.separator)
      let found := blanks.foldl (fun found b => addWide found b.cls) found
      addWide found (CharClass.normal (rest.flatMap (·.cls)))) found) []

/-- Whether a test by ranges lets the null character pass. -/
def testsNull (cls : CharClass) : Bool :=
  !cls.contains CharClass.top && cls.contains 0

/--
Whether the test of a class lets the null character pass: `simple` is the class once
`out` is ruled out. A class of many ranges is tested by the wide class that is nearest to
it, together with what is to be added and taken away.
-/
def passesNull (wide : List CharClass) (simple out : CharClass) : Bool :=
  let near := if simple.length < CharClass.wideRanges then none
    else wide.foldl (fun (best : Option (CharClass × CharClass × CharClass)) set =>
      if (simple.inter set).isEmpty then best
      else
        let added := (simple.diff set).simplify out
        let removed := (set.diff simple).simplify out
        let count := added.length + removed.length
        if count ≥ simple.length then best
        else match best with
          | some (_, a, r) => if a.length + r.length < count then best
                              else some (set, added, removed)
          | none => some (set, added, removed)) none
  match near with
  | some (set, added, removed) =>
    (set.contains 0 || testsNull added) && !removed.contains 0
  | none => simple.isEmpty || testsNull simple

/-- The first of some branches whose test lets the null character pass. -/
def nullBranch? (wide : List CharClass) (out : CharClass) : List Branch → Option Branch
  | [] => none
  | b :: rest =>
    if passesNull wide (b.cls.simplify out) out then some b
    else nullBranch? wide (CharClass.normal (out ++ b.cls)) rest

/-- Reads one character, if the scan goes on with it. -/
def step? (lx : Lexicon) (wide : List CharClass) (s : Scan) (c : Nat) : Option Move :=
  if c == 0 then (nullBranch? wide [] (lx.branches s)).map (·.move)
  else (lx.move? s c).filter fun m => (lx.best? s).all fun t => lx.goesOn s t m

end Lexicon

end CssNest
