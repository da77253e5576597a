/-!
# Sets of tokens

A set of tokens is a number whose binary digits say which tokens it has.
-/

namespace CssNest.Grammar

/-- A set of small numbers, as the binary digits of one number. -/
structure TokenSet where
  bits : Nat
deriving DecidableEq, Repr, Hashable, Inhabited

namespace TokenSet

/-- The set without members. -/
def empty : TokenSet := ⟨0⟩

/-- The set with one member. -/
def singleton (t : Nat) : TokenSet := ⟨1 <<< t⟩

/-- The members of either set. -/
def union (a b : TokenSet) : TokenSet := ⟨a.bits ||| b.bits⟩

/-- Whether `t` is a member. -/
def contains (s : TokenSet) (t : Nat) : Bool := s.bits.testBit t

/-- Whether there is no member. -/
def isEmpty (s : TokenSet) : Bool := s.bits == 0

/-- The set of the members of a list. -/
def ofList (ts : List Nat) : TokenSet := ts.foldl (fun s t => s.union (singleton t)) empty

/-- The members among `candidates`. -/
def among (s : TokenSet) (candidates : List Nat) : List Nat := candidates.filter s.contains

end TokenSet

end CssNest.Grammar
