import CssNest.Sheet.Basic

/-!
# Nested text

A block is written with its entries in order; a nested block stands in braces one
tab deeper. Media types other than `all` are wrapped in `@media`.
-/

namespace CssNest

open Token (indentation)

namespace Block

/-- Rule texts, one to a line. -/
def renderRules (level : Nat) (texts : List String) : String :=
  String.join (texts.map fun text => indentation level ++ text ++ "\n")

mutual

/-- The entries of a block, written at `level`. -/
def render (level : Nat) : Block → String
  | mk children rules rulesAt =>
    String.join (insertAt rulesAt (renderRules level rules) (renderChildren level children))

/-- The nested blocks, each with its braces. -/
def renderChildren (level : Nat) : List (String × Block) → List String
  | [] => []
  | (segment, block) :: rest =>
    (indentation level ++ segment ++ " \x7b\n" ++ block.render (level + 1)
      ++ indentation level ++ "\x7d\n") :: renderChildren level rest

end

end Block

namespace Sheet

/-- The block of one media type. -/
def renderMedia (media : String) (block : Block) : String :=
  if media == Token.allMedia then block.render 0
  else "@media " ++ media ++ " \x7b\n" ++ block.render 1 ++ "\x7d\n"

/-- The media types in order. -/
def render (t : Sheet) : String :=
  String.join (t.media.toList.map fun entry => renderMedia entry.1 entry.2)

end Sheet

end CssNest
