import CssNest.Tidy.Statement

/-!
# Reformatted stylesheets

A nested stylesheet is laid out anew: every statement on a line of its own, two spaces for
each level, a semicolon after every statement, and no more than one empty line where there
were some. Lines are kept to eighty columns where they can be broken. An empty block stands
on one line.

A text that cannot be read as a stylesheet of its dialect is refused.
-/

namespace CssNest.Tidy

/-- The stylesheet as a document. -/
def stylesheet (fuel : Nat) : Reader Doc := do
  let d ← read
  let items ← sequence (statement fuel) [] fuel
  Reader.guardThat (← Reader.atEnd)
  return itemsDoc d items

/-- The characters of a text behind its byte order mark, if it has one. -/
def withoutMark (cs : List Char) : List Char :=
  match cs with
  | '\uFEFF' :: rest => rest
  | _ => cs

/-- The text laid out anew, if it can be read. -/
def text? (dialect : Dialect) (text : String) : Option String :=
  let draft : Draft := ⟨dialect, (withoutMark text.toList).toArray⟩
  let fuel := 32 * draft.chars.size + 64
  ((stylesheet fuel).run draft).run' {} |>.map fun doc => String.ofList (doc.render ++ ['\n'])

end CssNest.Tidy
