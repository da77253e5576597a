/-!
# Style tokens

A stylesheet as a flat stream: rulesets, `@media`, `@font-face` and `@keyframes`
blocks open and close by tokens of their own, and a declaration in a ruleset carries
the media queries that it stands under.
-/

namespace CssNest

/-- A property with its value. -/
structure Declaration where
  property : String
  value : String
  important : Bool
  /-- The last declaration of its block is written without a semicolon. -/
  isLast : Bool
deriving DecidableEq, Repr

/-- `property: value`, then ` !important` and `;` where they belong. -/
def Declaration.text (d : Declaration) : String :=
  d.property ++ ": " ++ d.value ++ (if d.important then " !important" else "")
    ++ (if d.isLast then "" else ";")

/-- One token of the flat stream. -/
inductive Token where
  /-- Opens a ruleset, such as `html, body {`. -/
  | rulesetStart (selectors : List String)
  | rulesetEnd
  /-- Opens an `@media` block. -/
  | mediaStart (queries : List String)
  | mediaEnd
  /-- A declaration in a ruleset, with the queries of the `@media` blocks around it. -/
  | declaration (body : Declaration) (media : List String)
  | charset (value : String)
  | fontFaceStart
  | fontFaceDeclaration (body : Declaration)
  | fontFaceEnd
  /-- Opens `@keyframes name {`; the keyword may carry a vendor's prefix. -/
  | keyframesStart (keyword name : String)
  | keyframeStart (selectors : List String)
  | keyframeDeclaration (body : Declaration)
  | keyframeEnd
  | keyframesEnd
  /-- A comment with its delimiters. -/
  | comment (text : String)
  /-- Source text kept as it is. -/
  | raw (text : String)
deriving DecidableEq, Repr

namespace Token

/-- The media type of what stands under no `@media`. -/
def allMedia : String := "all"

/-- The token on its own, without indentation. -/
def text : Token → String
  | rulesetStart selectors => ",".intercalate selectors ++ " \x7b"
  | rulesetEnd | mediaEnd | fontFaceEnd | keyframeEnd | keyframesEnd => "\x7d"
  | mediaStart queries => "@media " ++ ", ".intercalate queries ++ " \x7b"
  | declaration body _ => body.text
  | fontFaceDeclaration body => body.text
  | keyframeDeclaration body => body.text
  | charset value => "@charset " ++ value ++ ";"
  | fontFaceStart => "@font-face \x7b"
  | keyframesStart keyword name => "@" ++ keyword ++ " \"" ++ name ++ "\" \x7b"
  | keyframeStart selectors => ",".intercalate selectors ++ " \x7b"
  | comment text => text
  | raw text => text

/-- `level` tabs. -/
def indentation (level : Nat) : String := String.ofList (List.replicate level '\t')

/--
How many tabs deeper than its surroundings a token stands: what belongs to a keyframe
or to a font face lines up inside the braces around it.
-/
def depth : Token → Nat
  | keyframeStart _ | keyframeEnd | fontFaceDeclaration _ => 1
  | keyframeDeclaration _ => 2
  | _ => 0

/-- The token as one line at `level`. A font face always opens at the margin. -/
def line (level : Nat) (t : Token) : String :=
  match t with
  | fontFaceStart => t.text
  | _ => indentation (level + t.depth) ++ t.text

end Token

end CssNest
