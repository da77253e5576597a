import CssNest.Text.Blank
import CssNest.Text.Quote

/-!
# Collapsed text

A selector, a query or a value is stored with every run of blanks outside quotes
written as one space and with no blanks at its ends, so that its spelling does not
hang on the layout of the source.
-/

namespace CssNest.Text

/--
The scan behind `collapse`: `q` is the open quote, and `pending` says that blanks
were passed since the last character written.
-/
def collapseFrom (q : Quote) (pending : Bool) : List Char → List Char
  | [] => []
  | c :: rest =>
    if q.isNone && isBlank c then collapseFrom q true rest
    else if pending then ' ' :: c :: collapseFrom (q.after c) false rest
    else c :: collapseFrom (q.after c) false rest

/-- Every run of blanks outside quotes becomes one space; the ends are trimmed. -/
def collapse (cs : List Char) : List Char := collapseFrom none false (trim cs)

/-- `collapse` on strings. -/
def collapseString (s : String) : String := String.ofList (collapse s.toList)

end CssNest.Text
