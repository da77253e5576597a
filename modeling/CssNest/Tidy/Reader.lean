import CssNest.Text.Blank
import CssNest.Tidy.Doc
import CssNest.Tidy.Lexeme

/-!
# Reading a draft

A reader goes through a draft from lexeme to lexeme and gives what it has read, or
nothing if that cannot be read. Blanks and comments before a lexeme are passed over; the
comments passed so far are kept, so that whoever lays out the lexeme can put them in front
of it.
-/

namespace CssNest.Tidy

/-- How far a draft has been read. -/
structure Cursor where
  /-- The place behind the last lexeme. -/
  pos : Nat := 0
deriving Repr, Inhabited

/-- A computation that reads on in a draft, or fails. -/
abbrev Reader := ReaderT Draft (StateT Cursor Option)

namespace Reader

/-- The place behind the last lexeme. -/
def position : Reader Nat := do return (← get).pos

/-- Reads on from a place. -/
def moveTo (i : Nat) : Reader Unit := modify fun c => { c with pos := i }

/-- The next lexeme, which stays unread. -/
def peek : Reader Lexeme := do
  let d ← read
  return d.lexemeAt (d.skip (← position)).1

/-- The comments before the next lexeme. -/
def comments : Reader (List Comment) := do
  let d ← read
  return (d.skip (← position)).2

/-- The lexeme behind another one. -/
def peekBehind (l : Lexeme) : Reader Lexeme := do
  let d ← read
  return d.lexemeAt (d.skip l.stop).1

/-- Reads one lexeme. -/
def next : Reader Lexeme := do
  let l ← peek
  moveTo l.stop
  return l

/-- Goes on only if a condition holds. -/
def guardThat (b : Bool) : Reader Unit := if b then pure () else failure

/-- Whether the next lexeme is a certain mark. -/
def isMark (s : String) : Reader Bool := do return (← peek).kind == .mark s

/-- Whether the next lexeme is one of some marks. -/
def isOneOf (marks : List String) : Reader Bool := do
  match (← peek).kind with
  | .mark s => return marks.contains s
  | _ => return false

/-- Reads a certain mark. -/
def expect (s : String) : Reader Lexeme := do
  guardThat (← isMark s)
  next

/-- Reads a certain mark if it comes next. -/
def eat (s : String) : Reader Bool := do
  if ← isMark s then
    let _ ← next
    return true
  else return false

/-- Whether the text ends. -/
def atEnd : Reader Bool := do return (← peek).kind == .ending

/-- The dialect of the draft. -/
def dialect : Reader Dialect := do return (← read).dialect

/-- Whether the draft is in SCSS. -/
def isScss : Reader Bool := do return (← dialect) == .scss

/-- The text of a lexeme. -/
def textOf (l : Lexeme) : Reader (List Char) := do return (← read).textOf l

/-- Whether a lexeme is a certain name, in capital or small letters. -/
def isWord (l : Lexeme) (word : String) : Reader Bool := do
  return l.kind == .name && lower (← textOf l) == word.toList

/-- Whether the next lexeme is a certain name. -/
def isNextWord (word : String) : Reader Bool := do isWord (← peek) word

/-- Reads a certain name if it comes next. -/
def eatWord (word : String) : Reader Bool := do
  if ← isNextWord word then
    let _ ← next
    return true
  else return false

/-- Whether nothing stands between the last lexeme and the next one. -/
def isAdjacent : Reader Bool := do return (← peek).start == (← position)

/-- Whether a line ends before the next lexeme. -/
def isOnNewLine : Reader Bool := do
  let d ← read
  return d.breaks (← position) (← peek).start > 0

/-- Reads in one way or, if that fails, in another. -/
def either {α : Type} (first second : Reader α) : Reader α := first <|> second

/-- Reads something if it can be read. -/
def option {α : Type} (r : Reader α) : Reader (Option α) := (some <$> r) <|> pure none

end Reader

/-! ## Comments -/

/-- The column where a place stands in its line. -/
def Draft.columnOf (d : Draft) (i : Nat) : Nat :=
  ((d.slice 0 i).reverse.takeWhile (· != '\n')).length

/-- A line without as many of its first blanks as there are columns before its comment. -/
def dropIndent : Nat → List Char → List Char
  | 0, cs => cs
  | n + 1, c :: cs => if isSpace c then dropIndent n cs else c :: cs
  | _ + 1, [] => []

/-- The lines of a text, without carriage returns at their ends. -/
def textLines (cs : List Char) : List (List Char) :=
  (cs.splitBy fun a _ => a != '\n').map fun l =>
    (l.filter (· != '\n')).reverse.dropWhile (· == '\r') |>.reverse

/--
A comment laid out. If all its further lines start with a star, the stars stand below the
first one; otherwise the lines keep their place against the first one.
-/
def Draft.commentDoc (d : Draft) (c : Comment) : Doc :=
  let raw := d.slice c.start c.stop
  if c.line then .text (raw.reverse.dropWhile isSpace).reverse
  else
    let closed := if raw.length ≥ 4 && raw.reverse.take 2 == ['/', '*'] then raw
      else raw ++ ['*', '/']
    match textLines closed with
    | [] => .empty
    | first :: rest =>
      let starred := rest.all fun l => (Text.trimStart l).head? == some '*'
      let body (l : List Char) : List Char :=
        if starred then ' ' :: Text.trimStart l else dropIndent (d.columnOf c.start) l
      rest.foldl (fun acc l =>
        if (body l).isEmpty then acc ++ .blank else acc ++ .hard ++ .text (body l)) (.text first)

/-- Comments, each with a space behind it; the line ends behind one that ends with it. -/
def Draft.commentsBefore (d : Draft) (cs : List Comment) : Doc :=
  Doc.all (cs.map fun c => d.commentDoc c ++ if c.line then .hard else .space)

/-- Comments, each with a space before it. -/
def Draft.commentsBehind (d : Draft) (cs : List Comment) : Doc :=
  Doc.all (cs.map fun c => .space ++ d.commentDoc c)

/-- Comments before a comma, each with a space before it. -/
def commentsBeforeComma : Reader Doc := do
  if ← Reader.isMark "," then return (← read).commentsBehind (← Reader.comments)
  else return .empty

end CssNest.Tidy
