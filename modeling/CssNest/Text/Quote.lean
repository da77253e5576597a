/-!
# Quoted parts

A scan over a selector or a value stands either outside quotes or inside a part
opened by `'` or `"`, which only the same character closes. A part left open
reaches to the end of the text.
-/

namespace CssNest.Text

/-- The quote that a scan stands in, `none` outside quotes. -/
abbrev Quote := Option Char

/-- The two characters that open a quoted part. -/
def isQuote (c : Char) : Bool := c == '\x22' || c == '\x27'

/-- Where the scan stands after `c`. -/
def Quote.after (q : Quote) (c : Char) : Quote :=
  match q with
  | some opened => if c == opened then none else some opened
  | none => if isQuote c then some c else none

end CssNest.Text
