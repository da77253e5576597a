/-!
# Patterns

The texts that a token can have are given by regular patterns over classes of
characters. A pattern is read through its *positions*, the occurrences of classes in
it: `Fragment` says at which positions a text can start and end and which position can
follow which. A scan then moves over sets of positions and needs no other machinery.
-/

namespace CssNest.Grammar

/-- A class of characters, as ranges of code points. -/
abbrev CharClass := List (Nat × Nat)

namespace CharClass

/-- Whether a class has a character. -/
def contains (cls : CharClass) (n : Nat) : Bool := cls.any fun r => r.1 ≤ n && n ≤ r.2

/-- Whether two classes have a character in common. -/
def overlaps (a b : CharClass) : Bool :=
  a.any fun r => b.any fun s => r.1 ≤ s.2 && s.1 ≤ r.2

/-- The characters of a text. -/
def ofString (s : String) : CharClass := s.toList.map fun c => (c.toNat, c.toNat)

/-- The largest code point. -/
def top : Nat := 0x10FFFF

/-- The code points between the ranges, which are in order; `next` is the first one left. -/
def gaps (next : Nat) : CharClass → CharClass
  | [] => if next ≤ top then [(next, top)] else []
  | (lo, hi) :: rest =>
    if next < lo then (next, lo - 1) :: gaps (max next (hi + 1)) rest
    else gaps (max next (hi + 1)) rest

/-- The characters that are not in a class. -/
def complement (cls : CharClass) : CharClass :=
  gaps 0 (cls.mergeSort fun a b => a.1 ≤ b.1)

end CharClass

/-- A regular pattern. -/
inductive Pattern where
  | empty
  | chars (cls : CharClass)
  | seq (a b : Pattern)
  | alt (a b : Pattern)
  /-- One or more times. -/
  | some (a : Pattern)
deriving Inhabited

namespace Pattern

/-- A fixed text. -/
def word (s : String) : Pattern :=
  s.toList.foldr (fun c p => seq (chars [(c.toNat, c.toNat)]) p) empty

/-- Patterns one after the other. -/
def all (ps : List Pattern) : Pattern := ps.foldr seq empty

/-- One of some patterns. -/
def any : List Pattern → Pattern
  | [] => empty
  | [p] => p
  | p :: ps => alt p (any ps)

/-- A pattern or nothing. -/
def optional (p : Pattern) : Pattern := alt p empty

/-- Any number of times. -/
def many (p : Pattern) : Pattern := optional (some p)

/-- From `n` to `n + extra` times. -/
def times (p : Pattern) (n extra : Nat) : Pattern :=
  all (List.replicate n p ++ List.replicate extra (optional p))

end Pattern

/-- A pattern through its positions. -/
structure Fragment where
  nullable : Bool
  first : List Nat
  last : List Nat
  classes : List CharClass
  follow : List (Nat × Nat)

namespace Fragment

/-- Every position of one list before every position of another. -/
def joins (before after : List Nat) : List (Nat × Nat) :=
  before.flatMap fun a => after.map fun b => (a, b)

/-- The positions that can follow a position. -/
def successors (f : Fragment) (p : Nat) : List Nat :=
  f.follow.filterMap fun e => if e.1 == p then some e.2 else none

end Fragment

/-- The positions of a pattern, numbered from `base` on. -/
def Pattern.fragment : Pattern → Nat → Fragment
  | .empty, _ => ⟨true, [], [], [], []⟩
  | .chars cls, base => ⟨false, [base], [base], [cls], []⟩
  | .seq a b, base =>
    let x := a.fragment base
    let y := b.fragment (base + x.classes.length)
    ⟨x.nullable && y.nullable,
      if x.nullable then x.first ++ y.first else x.first,
      if y.nullable then x.last ++ y.last else y.last,
      x.classes ++ y.classes,
      x.follow ++ y.follow ++ Fragment.joins x.last y.first⟩
  | .alt a b, base =>
    let x := a.fragment base
    let y := b.fragment (base + x.classes.length)
    ⟨x.nullable || y.nullable, x.first ++ y.first, x.last ++ y.last,
      x.classes ++ y.classes, x.follow ++ y.follow⟩
  | .some a, base =>
    let x := a.fragment base
    { x with follow := x.follow ++ Fragment.joins x.last x.first }

end CssNest.Grammar
