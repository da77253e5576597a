import CssNest.Text.Width

/-!
# Breakable text

A document is text with places where a line may end. A group stays on one line if it
fits there together with what follows it up to the next end of a line; otherwise all its
own places break. A hard end of a line fits nowhere. What is nested starts its lines two
columns further to the right.
-/

namespace CssNest.Tidy

/-- Text with places where a line may end. -/
inductive Doc where
  | empty
  | text (cs : List Char)
  /-- A space, or the end of a line. -/
  | line
  /-- Nothing, or the end of a line. -/
  | soft
  /-- The end of a line. -/
  | hard
  /-- The end of a line whose next line is empty. -/
  | blank
  | append (first second : Doc)
  | nest (body : Doc)
  | group (body : Doc)
deriving DecidableEq, Repr, Inhabited

instance : Append Doc := ⟨Doc.append⟩

namespace Doc

/-- The columns of a line. -/
def pageWidth : Nat := 80

/-- The columns by which a nested line moves to the right. -/
def indentWidth : Nat := 2

/-- A fixed text. -/
def word (s : String) : Doc := .text s.toList

/-- One space. -/
def space : Doc := .text [' ']

/-- The columns taken on one line; more than there are if a line ends inside. -/
def width : Doc → Nat
  | .empty => 0
  | .text cs => Text.width cs
  | .line => 1
  | .soft => 0
  | .hard => pageWidth + 1
  | .blank => pageWidth + 1
  | .append a b => a.width + b.width
  | .nest d => d.width
  | .group d => d.width

/--
The columns up to the first place that can end a line, and whether there is one. In a
group that stays on one line no place ends it.
-/
def lead (broken : Bool) : Doc → Nat × Bool
  | .empty => (0, false)
  | .text cs => (Text.width cs, false)
  | .line => if broken then (0, true) else (1, false)
  | .soft => (0, broken)
  | .hard => (0, true)
  | .blank => (0, true)
  | .append a b =>
    match a.lead broken with
    | (n, true) => (n, true)
    | (n, false) =>
      let next := b.lead broken
      (n + next.1, next.2)
  | .nest d => d.lead broken
  | .group d => d.lead broken

/-- What has been written so far. -/
structure Page where
  /-- The text, its last character first. -/
  written : List Char
  column : Nat

namespace Page

/-- The page with a text behind what it has. -/
def text (p : Page) (cs : List Char) : Page :=
  ⟨cs.reverseAux p.written, p.column + Text.width cs⟩

/-- The page with a new line that starts with blanks. -/
def lineEnd (p : Page) (indent : Nat) : Page :=
  ⟨List.replicate indent ' ' ++ '\n' :: p.written, indent⟩

end Page

/-- Writes a document on a page. `follow` columns come after it on its last line. -/
def layout (follow : Nat) (broken : Bool) (indent : Nat) (page : Page) : Doc → Page
  | .empty => page
  | .text cs => page.text cs
  | .line => if broken then page.lineEnd indent else page.text [' ']
  | .soft => if broken then page.lineEnd indent else page
  | .hard => page.lineEnd indent
  | .blank => page.lineEnd 0
  | .append a b =>
    let next := b.lead broken
    let page := a.layout (if next.2 then next.1 else next.1 + follow) broken indent page
    b.layout follow broken indent page
  | .nest d => d.layout follow broken (indent + indentWidth) page
  | .group d =>
    d.layout follow (broken && page.column + d.width + follow > pageWidth) indent page

/-- The text of a document. -/
def render (d : Doc) : List Char := (d.layout 0 true 0 ⟨[], 0⟩).written.reverse

/-- A space that ends the line if what follows does not fit. -/
def fill : Doc := .group .line

/-- A space, or the end of a line with the next one nested. -/
def turn : Doc := .nest .line

/-- The documents one after the other. -/
def all (ds : List Doc) : Doc := ds.foldl (· ++ ·) .empty

/-- The documents with a separator between them. -/
def join (separator : Doc) : List Doc → Doc
  | [] => .empty
  | d :: rest => rest.foldl (fun acc e => acc ++ separator ++ e) d

/-- A comma and a place where the line may end. -/
def comma : Doc := word "," ++ .line

/-- A body in brackets, on lines of its own if it does not fit. -/
def bracketed (opening closing : String) (body : Doc) : Doc :=
  word opening ++ .nest (.soft ++ body) ++ .soft ++ word closing

end Doc

end CssNest.Tidy
