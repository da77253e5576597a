import CssNest.Dialect

/-!
# Lexemes of a nested stylesheet

A nested stylesheet is read as names, numbers, strings and marks. What stands at a place
does not depend on what is expected there, but a little on the dialect: `#` before a brace
opens an interpolation in one, `@` before a brace in the other.
-/

namespace CssNest.Tidy

/-- A nested stylesheet that is to be laid out. -/
structure Draft where
  dialect : Dialect
  chars : Array Char

/-- The kind of a lexeme. -/
inductive LexemeKind where
  | name
  /-- A name behind `@`. -/
  | atName
  /-- A name behind `#`. -/
  | hash
  /-- A name behind `$`. -/
  | variable
  /-- A name behind `%`. -/
  | placeholder
  | number
  /-- A number with a unit. -/
  | dimension
  | percentage
  | string
  | mark (text : String)
  | ending
  /-- A place where nothing can be read. -/
  | unreadable
deriving DecidableEq, Repr, Inhabited

/-- A stretch of a draft that is read as one. -/
structure Lexeme where
  kind : LexemeKind
  start : Nat
  stop : Nat
  /-- Where the unit of a number starts. -/
  unit : Nat := stop
deriving Repr, Inhabited

/-- A comment in a draft. -/
structure Comment where
  start : Nat
  stop : Nat
  /-- Whether it ends with its line. -/
  line : Bool
deriving DecidableEq, Repr

/-! ## Characters -/

/-- The white space of a draft. -/
def isSpace (c : Char) : Bool := c == ' ' || c == '\n' || c == '\t' || c == '\r' || c == '\x0c'

/-- The characters that a name can start with. -/
def startsName (c : Char) : Bool := c.isAlpha || c == '_' || c.toNat ≥ 0x80

/-- The characters that a name can go on with. -/
def continuesName (c : Char) : Bool := startsName c || c.isDigit || c == '-'

/-- The hexadecimal digits. -/
def isHexDigit (c : Char) : Bool :=
  c.isDigit || ('a' ≤ c && c ≤ 'f') || ('A' ≤ c && c ≤ 'F')

/-- The text in small letters. -/
def lower (cs : List Char) : List Char := cs.map Char.toLower

namespace Draft

/-- Whether a place has a certain character. -/
def has (d : Draft) (i : Nat) (c : Char) : Bool := d.chars[i]? == some c

/-- Whether the character at a place passes a test. -/
def test (d : Draft) (i : Nat) (p : Char → Bool) : Bool := (d.chars[i]?.map p).getD false

/-- The text from one place up to another. -/
def slice (d : Draft) (start stop : Nat) : List Char := (d.chars.extract start stop).toList

/-- Whether a text stands at a place. -/
def hasText (d : Draft) (i : Nat) (s : String) : Bool :=
  d.slice i (i + s.length) == s.toList

/-- Whether a backslash at a place escapes something. -/
def escapes (d : Draft) (i : Nat) : Bool :=
  d.has i '\\' && d.test (i + 1) fun c => c != '\n' && c != '\r' && c != '\x0c'

/-- The first place from `i` on, at most `limit` further, whose character fails a test. -/
def spanUpTo (d : Draft) (p : Char → Bool) (i : Nat) : Nat → Nat
  | 0 => i
  | limit + 1 => if d.test i p then d.spanUpTo p (i + 1) limit else i

/-- The first place from `i` on whose character fails a test. -/
def span (d : Draft) (p : Char → Bool) (i : Nat) : Nat := d.spanUpTo p i (d.chars.size - i)

/--
The end of the escape at a place: up to six hexadecimal digits with one blank after them,
or one character.
-/
def escapeEnd (d : Draft) (i : Nat) : Nat :=
  let digits := d.spanUpTo isHexDigit (i + 1) 6
  if digits == i + 1 then i + 2
  else if d.has digits '\r' && d.has (digits + 1) '\n' then digits + 2
  else if d.test digits isSpace then digits + 1
  else digits

/-- The end of the name that goes on at a place. -/
def nameEnd (d : Draft) (i : Nat) : Nat :=
  if i < d.chars.size then
    if d.test i continuesName then d.nameEnd (i + 1)
    else if d.escapes i then d.nameEnd (max (i + 1) (d.escapeEnd i))
    else i
  else i
termination_by d.chars.size - i

/-- Whether a name starts at a place. -/
def startsNameAt (d : Draft) (i : Nat) : Bool :=
  d.test i startsName || d.escapes i
    || (d.has i '-' && (d.test (i + 1) startsName || d.has (i + 1) '-' || d.escapes (i + 1)))

/-- Whether an interpolation starts at a place. -/
def interpolates (d : Draft) (i : Nat) : Bool :=
  match d.dialect with
  | .scss => d.has i '#' && d.has (i + 1) '\x7b'
  | .less => d.has i '@' && d.has (i + 1) '\x7b'

/-- The end of the digits at a place. -/
def digitsEnd (d : Draft) (i : Nat) : Nat := d.span Char.isDigit i

/-- The end of the number without a sign at a place. -/
def numberEnd? (d : Draft) (i : Nat) : Option Nat :=
  let whole := d.digitsEnd i
  let stop := if d.has whole '.' && d.test (whole + 1) Char.isDigit
    then d.digitsEnd (whole + 1) else whole
  if stop == i then none
  else if d.test stop fun c => c == 'e' || c == 'E' then
    if d.test (stop + 1) Char.isDigit then some (d.digitsEnd (stop + 1))
    else if d.test (stop + 1) (fun c => c == '+' || c == '-') && d.test (stop + 2) Char.isDigit
    then some (d.digitsEnd (stop + 2))
    else some stop
  else some stop

/-- The place behind the brace that closes one opened before `i`. -/
def braceEnd (d : Draft) (depth : Nat) (i : Nat) : Nat :=
  if i < d.chars.size then
    if d.has i '\x7b' then d.braceEnd (depth + 1) (i + 1)
    else if d.has i '\x7d' then
      match depth with
      | 0 => i + 1
      | depth + 1 => d.braceEnd depth (i + 1)
    else d.braceEnd depth (i + 1)
  else i
termination_by d.chars.size - i

/-- The end of a string whose body goes on at a place; nothing if its line ends before. -/
def stringEnd? (d : Draft) (quote : Char) (i : Nat) : Option Nat :=
  if i < d.chars.size then
    if d.has i quote then some (i + 1)
    else if d.has i '\\' then d.stringEnd? quote (i + 2)
    else if d.has i '\n' then none
    else if d.dialect == .scss && d.interpolates i then
      d.stringEnd? quote (max (i + 2) (d.braceEnd 0 (i + 2)))
    else d.stringEnd? quote (i + 1)
  else none
termination_by d.chars.size - i

/-- The end of a comment whose body goes on at a place. -/
def commentEnd (d : Draft) (i : Nat) : Nat :=
  if i < d.chars.size then
    if d.has i '*' && d.has (i + 1) '/' then i + 2 else d.commentEnd (i + 1)
  else i
termination_by d.chars.size - i

/-- The comment at a place. -/
def comment? (d : Draft) (i : Nat) : Option Comment :=
  if d.has i '/' && d.has (i + 1) '*' then some ⟨i, d.commentEnd (i + 2), false⟩
  else if d.has i '/' && d.has (i + 1) '/' then some ⟨i, d.span (· != '\n') i, true⟩
  else none

/-- The first place from `i` on without blanks and comments, and the comments before it. -/
def skip (d : Draft) (i : Nat) : Nat × List Comment :=
  if i < d.chars.size then
    if d.test i isSpace then d.skip (i + 1)
    else match d.comment? i with
      | some c =>
        let (stop, more) := d.skip (max (i + 1) c.stop)
        (stop, c :: more)
      | none => (i, [])
  else (i, [])
termination_by d.chars.size - i

/-! ## Lexemes -/

/-- The marks of several characters. -/
def longMarks : List String :=
  ["...", "::", "<=", ">=", "==", "!=", "~=", "|=", "^=", "$=", "*=", "||"]

/-- The number at a place, whose digits start at `digits`. -/
def numberAt? (d : Draft) (i digits : Nat) : Option Lexeme :=
  (d.numberEnd? digits).map fun stop =>
    if d.has stop '%' then ⟨.percentage, i, stop + 1, stop⟩
    else if d.startsNameAt stop then ⟨.dimension, i, d.nameEnd stop, stop⟩
    else ⟨.number, i, stop, stop⟩

/-- The mark at a place. -/
def markAt (d : Draft) (i : Nat) (c : Char) : Lexeme :=
  match longMarks.find? (d.hasText i) with
  | some s => ⟨.mark s, i, i + s.length, i + s.length⟩
  | none =>
    if d.interpolates i then
      let s := if d.dialect == .scss then "#\x7b" else "@\x7b"
      ⟨.mark s, i, i + 2, i + 2⟩
    else if ".,:;()[]\x7b\x7d<>=!~|*&/?%+-#@$".toList.contains c || c == '\x60' then
      ⟨.mark (String.ofList [c]), i, i + 1, i + 1⟩
    else ⟨.unreadable, i, i + 1, i + 1⟩

/-- The name behind a character at a place, if there is one. -/
def marked? (d : Draft) (kind : LexemeKind) (i : Nat) : Option Lexeme :=
  if d.startsNameAt (i + 1) then some ⟨kind, i, d.nameEnd (i + 1), i⟩ else none

/-- What starts at a place that has neither blanks nor a comment. -/
def lexemeAt (d : Draft) (i : Nat) : Lexeme :=
  match d.chars[i]? with
  | none => ⟨.ending, i, i, i⟩
  | some c =>
    if c == '\x22' || c == '\x27' then
      match d.stringEnd? c (i + 1) with
      | some stop => ⟨.string, i, stop, stop⟩
      | none => ⟨.unreadable, i, i + 1, i + 1⟩
    else if d.startsNameAt i then ⟨.name, i, d.nameEnd i, i⟩
    else
      let special : Option Lexeme :=
        if c.isDigit || c == '.' then d.numberAt? i i
        else if c == '+' || c == '-' then d.numberAt? i (i + 1)
        else if d.interpolates i then none
        else if c == '#' then
          if d.test (i + 1) continuesName || d.escapes (i + 1) then
            some ⟨.hash, i, d.nameEnd (i + 1), i⟩
          else none
        else if c == '@' then d.marked? .atName i
        else if c == '$' then d.marked? .variable i
        else if c == '%' && d.dialect == .scss then d.marked? .placeholder i
        else none
      special.getD (d.markAt i c)

/-- The text of a lexeme. -/
def textOf (d : Draft) (l : Lexeme) : List Char := d.slice l.start l.stop

/-- The number of line breaks between two places. -/
def breaks (d : Draft) (start stop : Nat) : Nat := (d.slice start stop).count '\n'

end Draft

end CssNest.Tidy
