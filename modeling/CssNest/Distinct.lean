/-!
# Lists without repetition

Media queries, media types and the like are collected so that each stands once, at
the place of its first use.
-/

namespace CssNest

/-- `x` at the end of the list, unless the list has it already. -/
def pushNew {α : Type} [BEq α] (xs : List α) (x : α) : List α :=
  if xs.contains x then xs else xs ++ [x]

/-- The members of a list, each once, in the order of first occurrence. -/
def distinct {α : Type} [BEq α] (xs : List α) : List α := xs.foldl pushNew []

end CssNest
