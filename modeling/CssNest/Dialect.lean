/-!
# Dialects

LESS and SCSS share the nested block syntax; they differ in how a variable is
marked.
-/

namespace CssNest

/-- The language of the nested stylesheet. -/
inductive Dialect where
  | less
  | scss
deriving DecidableEq, Repr, Inhabited

namespace Dialect

/-- The character before a variable's name. -/
def sigil : Dialect → Char
  | less => '@'
  | scss => '$'

/-- A use of a variable, such as `@color_1`. -/
def reference (d : Dialect) (name : String) : String := String.ofList [d.sigil] ++ name

/-- The line that declares a variable, such as `@color_1: red;`. -/
def declaration (d : Dialect) (name value : String) : String :=
  d.reference name ++ ": " ++ value ++ ";"

/-- The usual file name extension, which is also the name of the dialect in settings. -/
def extension : Dialect → String
  | less => "less"
  | scss => "scss"

/-- The dialect with a given name. -/
def ofName? (name : String) : Option Dialect :=
  [less, scss].find? fun d => d.extension == name

end Dialect

end CssNest
