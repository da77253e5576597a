import CssNest.Tidy.Reader

/-!
# Values

A value is a word, a number, a string, a function call, a bracketed part, or, in the
nested dialects, a variable, an interpolation or an operation on such values. A reader
here gives a value as a document, together with what its neighbours have to know of it.

Operations with signs and stars have a space on both sides of the operator and may break
behind it. A calculation, such as the argument of `calc`, loses the parentheses that its
operators do not need.
-/

namespace CssNest.Tidy

open Reader

/-! ## Single lexemes -/

/-- The units that are known, in small letters. -/
def knownUnits : List String :=
  ["em", "rem", "ex", "rex", "cap", "rcap", "ch", "rch", "ic", "ric", "lh", "rlh",
    "vw", "svw", "lvw", "dvw", "vh", "svh", "lvh", "dvh", "vi", "svi", "lvi", "dvi",
    "vb", "svb", "lvb", "dvb", "vmin", "svmin", "lvmin", "dvmin", "vmax", "svmax", "lvmax",
    "dvmax", "cm", "mm", "q", "in", "pt", "pc", "px", "deg", "grad", "rad", "turn", "s", "ms",
    "hz", "khz", "dpi", "dpcm", "dppx", "x", "fr", "cqw", "cqh", "cqi", "cqb", "cqmin", "cqmax"]

/-- A unit as it is written: small letters, apart from those named for a person. -/
def unitText (cs : List Char) : List Char :=
  let small := String.ofList (lower cs)
  if small == "q" then "Q".toList
  else if small == "hz" then "Hz".toList
  else if small == "khz" then "kHz".toList
  else if knownUnits.contains small then small.toList
  else cs

/-- A number as it is written: a zero before a leading point, a small `e`. -/
def numberText (cs : List Char) : List Char :=
  match lower cs with
  | '.' :: rest => '0' :: '.' :: rest
  | '+' :: '.' :: rest => '+' :: '0' :: '.' :: rest
  | '-' :: '.' :: rest => '-' :: '0' :: '.' :: rest
  | rest => rest

/-- The body of a string between double quotes: only those that are not escaped change. -/
def escapeQuotes : List Char → List Char
  | '\\' :: c :: rest => '\\' :: c :: escapeQuotes rest
  | '\x22' :: rest => '\\' :: '\x22' :: escapeQuotes rest
  | c :: rest => c :: escapeQuotes rest
  | [] => []

/-- A string in double quotes. -/
def stringText (cs : List Char) : List Char :=
  match cs with
  | '\x27' :: rest => '\x22' :: escapeQuotes rest.dropLast ++ ['\x22']
  | _ => cs

/-- The text of a lexeme as it is written. -/
def Draft.tidyText (d : Draft) (l : Lexeme) : List Char :=
  match l.kind with
  | .number => numberText (d.textOf l)
  | .dimension => numberText (d.slice l.start l.unit) ++ unitText (d.slice l.unit l.stop)
  | .percentage => numberText (d.slice l.start l.unit) ++ ['%']
  | .hash => lower (d.textOf l)
  | .string => stringText (d.textOf l)
  | _ => d.textOf l

/-! ## Runs of lexemes -/

/-- A document with the stretch of the draft it stands for. -/
structure Part where
  doc : Doc
  start : Nat
  stop : Nat

/-- The mark that closes what a mark opens. -/
def closing? (s : String) : Option String :=
  if s == "(" then some ")"
  else if s == "[" then some "]"
  else if s == "\x7b" || s == "#\x7b" || s == "@\x7b" then some "\x7d"
  else none

/--
Lexemes up to one of some marks or to a bracket that was not opened here, all as they
are. `opened` are the brackets that are still to be closed.
-/
def lexemes (stops : List String) (opened : List String) (read : List Part) :
    Nat → Reader (List Part)
  | 0 => failure
  | fuel + 1 => do
    let d ← ReaderT.read
    let l ← peek
    let before := (← comments).map fun c => Part.mk (d.commentDoc c) c.start c.stop
    let part := Part.mk (.text (d.tidyText l)) l.start l.stop
    match l.kind with
    | .ending =>
      guardThat opened.isEmpty
      return read.reverse
    | .unreadable => failure
    | .mark s =>
      match opened with
      | [] =>
        if stops.contains s || [")", "]", "\x7d"].contains s then return read.reverse
      | _ => pure ()
      let _ ← next
      let read := part :: before.reverse ++ read
      match closing? s, opened with
      | some close, _ => lexemes stops (close :: opened) read fuel
      | none, close :: opened' =>
        if s == close then lexemes stops opened' read fuel
        else if [")", "]", "\x7d"].contains s then failure
        else lexemes stops opened read fuel
      | none, [] => lexemes stops opened read fuel
    | _ =>
      let _ ← next
      lexemes stops opened (part :: before.reverse ++ read) fuel

/-- Parts one after the other, with blanks where the draft has some. -/
def spaced : List Part → Doc
  | [] => .empty
  | first :: rest =>
    (rest.foldl (fun (doc, stop) p =>
      (doc ++ (if p.start == stop then .empty else .group .turn) ++ p.doc, p.stop))
      (first.doc, first.stop)).1

/-! ## Shapes -/

/-- What the neighbours of a value have to know of it. -/
inductive ShapeKind where
  /-- A comma. -/
  | comma
  /-- A semicolon between arguments. -/
  | semicolon
  /-- A slash that stands for itself. -/
  | slash
  /-- A function call, a variable or a part in parentheses: what a slash divides. -/
  | quantity
  /-- A calculation whose last operator is `+` or `-`. -/
  | sum
  /-- A calculation whose last operator is `*` or `/`. -/
  | product
  /-- A block of statements. -/
  | block
  | other
deriving DecidableEq, Repr

/-- A value, with the comments before it. -/
structure Shape where
  doc : Doc
  kind : ShapeKind
  start : Nat
  stop : Nat
  before : List Comment := []

namespace Shape

/-- Whether a value separates its neighbours. -/
def isSeparator (s : Shape) : Bool := s.kind == .comma || s.kind == .semicolon

/-- Two values with an operator between them. -/
def operation (kind : ShapeKind) (left : Shape) (operator : String) (right : Shape) : Shape :=
  { left with
    doc := .group (left.doc ++ .space ++ Doc.word operator ++ .turn ++ right.doc)
    kind, stop := right.stop }

/-- A calculation in parentheses, on lines of its own where its group breaks. -/
def parenthesized (s : Shape) : Shape := { s with doc := Doc.bracketed "(" ")" s.doc }

/-- A calculation, with the parentheses that its operator needs around its operands. -/
def calculation (left : Shape) (operator : String) (right : Shape) : Shape :=
  let multiplies := operator == "*" || operator == "/"
  let inner (s : Shape) (onRight : Bool) :=
    let needed :=
      if multiplies then s.kind == .sum || (onRight && operator == "/" && s.kind == .product)
      else onRight && operator == "-" && s.kind == .sum
    if needed then s.parenthesized else s
  operation (if multiplies then .product else .sum) (inner left false) operator (inner right true)

end Shape

/-- A name, possibly with interpolations. -/
structure Name where
  doc : Doc
  /-- Its text, if nothing in it is interpolated. -/
  literal : Option (List Char)
  start : Nat
  stop : Nat

/-- A name in small letters, if nothing in it is interpolated. -/
def Name.lowered (n : Name) : Doc := (n.literal.map fun cs => Doc.text (lower cs)).getD n.doc

/-- Whether a name is a certain word, in capital or small letters. -/
def Name.isWord (n : Name) (word : String) : Bool := n.literal.map lower == some word.toList

/-- The functions whose arguments are calculations. -/
def calculations : List String :=
  ["calc", "-webkit-calc", "-moz-calc", "min", "max", "clamp", "sin", "cos", "tan", "asin",
    "acos", "atan", "atan2", "pow", "sqrt", "hypot", "log", "exp", "abs", "sign", "round", "mod",
    "rem"]

/-- The arguments of a function, in its parentheses. -/
def argumentsDoc (d : Draft) (broken : Bool) (args : List Shape) : Doc :=
  let step (state : Doc × Option Shape) (s : Shape) : Doc × Option Shape :=
    let between := match state.2 with
      | none => .empty
      | some p =>
        if s.isSeparator then .empty
        else if p.isSeparator then .line
        else if p.stop == s.start then .empty
        else .line
    (state.1 ++ between ++ d.commentsBefore s.before ++ s.doc, some s)
  let body := (args.foldl step (.empty, none)).1
  if args.isEmpty then Doc.word "()"
  else
    let edge := if broken then Doc.hard else Doc.soft
    .group (Doc.word "(" ++ .nest (edge ++ body) ++ edge ++ Doc.word ")")

/-- The operator of a level that comes next behind a value; it is read. -/
def operator? (level : Nat) (divides : Bool) (left : Shape) : Reader (Option String) := do
  let d ← read
  let l ← peek
  let scss := d.dialect == .scss
  let here ← position
  let take (s : String) : Reader (Option String) := do
    moveTo (l.start + s.length)
    return some s
  let among (ops : List String) : Reader (Option String) :=
    match l.kind with
    | .mark s => if ops.contains s then take s else return none
    | _ => return none
  match level with
  | 0 => if scss && (← isWord l "or") then take "or" else return none
  | 1 => if scss && (← isWord l "and") then take "and" else return none
  | 2 => if scss then among ["==", "!="] else return none
  | 3 => if scss then among ["<", ">", "<=", ">="] else return none
  | 4 =>
    match l.kind with
    | .mark "+" => take "+"
    | .mark "-" =>
      let blankBefore := l.start != here
      let blankBehind := d.test l.stop isSpace
      if blankBefore && !blankBehind then return none else take "-"
    | .number | .dimension | .percentage =>
      if d.has l.start '+' then take "+"
      else if d.has l.start '-' && l.start == here then take "-"
      else return none
    | _ => return none
  | _ =>
    match l.kind with
    | .mark "*" => take "*"
    | .mark "/" =>
      if divides || (scss && left.kind == .quantity) then take "/" else return none
    | .mark "%" => if scss then take "%" else return none
    | _ => return none

/-- The level of the operators that bind closest. -/
def closestLevel : Nat := 5

/-! ## Readers of values -/

/-- The address of `url( … )` without quotes, read behind the opening parenthesis. -/
def rawAddress : Reader (List Char) := do
  let d ← read
  let start := d.span isSpace (← position)
  let isPlain (c : Char) : Bool :=
    !isSpace c && c != '(' && c != ')' && c != '\x22' && c != '\x27'
  let stop := d.span isPlain start
  let close := d.span isSpace stop
  guardThat (d.has close ')')
  moveTo (close + 1)
  return d.slice start stop

/-- The quoted address of `url( … )`, read behind the opening parenthesis. -/
def quotedAddress : Reader (List Char) := do
  let d ← read
  let l ← next
  guardThat (l.kind == .string)
  let _ ← expect ")"
  return d.tidyText l

/-- The range of characters that starts at a place, such as `U+0025-00FF`. -/
def Draft.characterRangeEnd? (d : Draft) (i : Nat) : Option Nat :=
  if d.test i (fun c => c == 'u' || c == 'U') && d.has (i + 1) '+' then
    let digits := d.span isHexDigit (i + 2)
    let stop := d.span (· == '?') digits
    if stop == i + 2 then none
    else if stop == digits && d.has stop '-' then
      let last := d.span isHexDigit (stop + 1)
      some (if last == stop + 1 then stop else last)
    else some stop
  else none

mutual

/-- An interpolation. -/
def interpolation (block : Reader Doc) (fuel : Nat) : Reader Doc :=
  match fuel with
  | 0 => failure
  | fuel + 1 => do
    if ← isScss then
      let _ ← expect "#\x7b"
      let body ← commaList block fuel
      let _ ← expect "\x7d"
      return Doc.word "#\x7b" ++ body.doc ++ Doc.word "\x7d"
    else
      let _ ← expect "@\x7b"
      let l ← next
      guardThat (l.kind == .name)
      let _ ← expect "\x7d"
      return Doc.word "@\x7b" ++ .text (← textOf l) ++ Doc.word "\x7d"

/-- The pieces of a name that follow each other without a blank. -/
def namePieces (block : Reader Doc) (doc : Doc) (plain : Bool) (fuel : Nat) :
    Reader (Doc × Bool) :=
  match fuel with
  | 0 => failure
  | fuel + 1 => do
    let d ← read
    let i ← position
    if d.interpolates i then
      let piece ← interpolation block fuel
      namePieces block (doc ++ piece) false fuel
    else
      let stop := d.nameEnd i
      if stop == i then return (doc, plain)
      else
        moveTo stop
        namePieces block (doc ++ .text (d.slice i stop)) plain fuel

/-- A name, possibly with interpolations. -/
def name (block : Reader Doc) (fuel : Nat) : Reader Name :=
  match fuel with
  | 0 => failure
  | fuel + 1 => do
    let d ← read
    let l ← peek
    guardThat (l.kind == .name || d.interpolates l.start
      || (l.kind == .mark "-" && d.interpolates l.stop))
    moveTo l.start
    let (doc, plain) ← namePieces block .empty true fuel
    let stop ← position
    return ⟨doc, if plain then some (d.slice l.start stop) else none, l.start, stop⟩

/-- A value without operators. -/
def atom (block : Reader Doc) (fuel : Nat) : Reader Shape :=
  match fuel with
  | 0 => failure
  | fuel + 1 => do
    let d ← read
    let before ← comments
    let l ← peek
    let scss := d.dialect == .scss
    let simple (kind : ShapeKind) : Reader Shape := do
      let l ← next
      return ⟨.text (d.tidyText l), kind, l.start, l.stop, before⟩
    let finish (kind : ShapeKind) (doc : Doc) : Reader Shape := do
      return ⟨doc, kind, l.start, ← position, before⟩
    match l.kind with
    | .number | .dimension | .percentage | .hash | .string => simple .other
    | .variable => simple .quantity
    | .name =>
      match d.characterRangeEnd? l.start with
      | some stop =>
        moveTo stop
        finish .other (.text ((d.slice l.start stop).map Char.toUpper))
      | none => finish .other .empty >>= named block fuel
    | .atName =>
      guardThat !scss
      let _ ← next
      let doc := Doc.text (d.tidyText l)
      if d.has l.stop '[' then
        let inner ← lookups block doc fuel
        finish .quantity inner
      else if d.has l.stop '(' && d.has (l.stop + 1) ')' then
        moveTo (l.stop + 2)
        finish .quantity (doc ++ Doc.word "()")
      else finish .quantity doc
    | .mark "," => simple .comma
    | .mark "/" => simple .slash
    | .mark "(" => do
      let doc ← parentheses block fuel
      finish .quantity doc
    | .mark "[" =>
      let _ ← next
      let inner ← values block [] fuel
      let _ ← expect "]"
      let step (state : Doc × Bool) (s : Shape) : Doc × Bool :=
        (state.1 ++ (if state.2 || s.kind == .comma then .empty else Doc.fill)
          ++ d.commentsBefore s.before ++ s.doc, false)
      finish .other (Doc.word "[" ++ (inner.foldl step (.empty, true)).1 ++ Doc.word "]")
    | .mark "\x7b" =>
      guardThat scss
      let doc ← block
      finish .block doc
    | .mark "&" =>
      guardThat scss
      simple .quantity
    | .mark "@" =>
      guardThat !scss
      let _ ← next
      let inner ← next
      guardThat (inner.kind == .atName && inner.start == l.stop)
      finish .quantity (Doc.word "@" ++ .text (d.tidyText inner))
    | .mark "~" =>
      guardThat !scss
      let _ ← next
      let inner ← next
      guardThat (inner.kind == .string && inner.start == l.stop)
      finish .other (Doc.word "~" ++ .text (d.tidyText inner))
    | .mark "%" =>
      guardThat (!scss && d.has l.stop '(')
      let _ ← next
      let doc ← call block none fuel
      finish .quantity (Doc.word "%" ++ doc)
    | .mark "-" | .mark "+" =>
      if d.interpolates l.stop then finish .other .empty >>= named block fuel
      else do
        guardThat (scss || !d.test l.stop isSpace)
        let _ ← next
        let inner ← atom block fuel
        guardThat !inner.isSeparator
        finish .quantity (.text (d.textOf l) ++ inner.doc)
    | .mark "#\x7b" | .mark "@\x7b" => finish .other .empty >>= named block fuel
    | _ => failure

/-- A value that starts with a name: the name, a function call or a member of a module. -/
def named (block : Reader Doc) (fuel : Nat) (place : Shape) : Reader Shape :=
  match fuel with
  | 0 => failure
  | fuel + 1 => do
    let d ← read
    let n ← name block fuel
    let finish (kind : ShapeKind) (doc : Doc) : Reader Shape := do
      return { place with doc, kind, stop := ← position }
    if d.has n.stop '(' then
      if n.isWord "url" then
        let address ← option (do
          moveTo (n.stop + 1)
          either quotedAddress (do moveTo (n.stop + 1); rawAddress))
        match address with
        | some cs => finish .other (Doc.word "url(" ++ .text cs ++ Doc.word ")")
        | none =>
          guardThat (d.dialect == .scss)
          moveTo n.stop
          let args ← call block (some n) fuel
          finish .quantity (n.lowered ++ args)
      else
        let args ← call block (some n) fuel
        finish .quantity (n.doc ++ args)
    else if d.dialect == .scss && d.has n.stop '.' && d.startsNameAt (n.stop + 1) then
      moveTo (n.stop + 1)
      let member ← name block fuel
      guardThat (d.has member.stop '(')
      let args ← call block (some member) fuel
      finish .quantity (n.doc ++ Doc.word "." ++ member.doc ++ args)
    else if d.dialect == .scss && d.has n.stop '.' && d.has (n.stop + 1) '$' then
      moveTo (n.stop + 1)
      let l ← next
      finish .quantity (n.doc ++ Doc.word "." ++ .text (d.textOf l))
    else finish .other n.doc

/-- The lookups behind a variable, such as `[@key]`. -/
def lookups (block : Reader Doc) (doc : Doc) (fuel : Nat) : Reader Doc :=
  match fuel with
  | 0 => failure
  | fuel + 1 => do
    if (← isMark "[") && (← isAdjacent) then
      let _ ← next
      let inner ← lexemes [] [] [] fuel
      let _ ← expect "]"
      lookups block (doc ++ Doc.word "[" ++ spaced inner ++ Doc.word "]") fuel
    else return doc

/-- The arguments of a function, in their parentheses. -/
def call (block : Reader Doc) (n : Option Name) (fuel : Nat) : Reader Doc :=
  match fuel with
  | 0 => failure
  | fuel + 1 => do
    let d ← read
    let opening ← expect "("
    let broken ← isOnNewLine
    let calculates := calculations.any fun w => (n.map (·.isWord w)).getD false
    let structured : Reader Doc := do
      let args ← if calculates then calculationArguments block [] fuel
        else arguments block [] fuel
      let _ ← expect ")"
      return argumentsDoc d broken args
    either structured do
      moveTo opening.stop
      let inner ← lexemes [] [] [] fuel
      let _ ← expect ")"
      return Doc.word "(" ++ spaced inner ++ Doc.word ")"

/-- Arguments with their separators. -/
def arguments (block : Reader Doc) (done : List Shape) (fuel : Nat) : Reader (List Shape) :=
  match fuel with
  | 0 => failure
  | fuel + 1 => do
    let before ← comments
    let l ← peek
    match l.kind with
    | .mark ")" => return done.reverse
    | .mark "," =>
      let _ ← next
      arguments block (⟨Doc.word ",", .comma, l.start, l.stop, before⟩ :: done) fuel
    | .mark ";" =>
      guardThat !(← isScss)
      let _ ← next
      arguments block (⟨Doc.word ";", .semicolon, l.start, l.stop, before⟩ :: done) fuel
    | _ =>
      let arg ← argument block fuel
      arguments block (arg :: done) fuel

/-- One argument, with its name if it has one. -/
def argument (block : Reader Doc) (fuel : Nat) : Reader Shape :=
  match fuel with
  | 0 => failure
  | fuel + 1 => do
    let l ← peek
    let behind ← peekBehind l
    if l.kind == .variable && behind.kind == .mark ":" then
      let before ← comments
      let _ ← next
      let _ ← next
      let value ← spaceList block fuel
      return { value with
        doc := .text (← textOf l) ++ Doc.word ": " ++ value.doc, start := l.start, before }
    else
      let value ← spaceList block fuel
      if ← eat "..." then
        return { value with doc := value.doc ++ Doc.word "...", stop := ← position }
      else return value

/-- The arguments of a calculation with their separators. -/
def calculationArguments (block : Reader Doc) (done : List Shape) (fuel : Nat) :
    Reader (List Shape) :=
  match fuel with
  | 0 => failure
  | fuel + 1 => do
    let before ← comments
    let l ← peek
    match l.kind with
    | .mark ")" => return done.reverse
    | .mark "," =>
      let _ ← next
      calculationArguments block (⟨Doc.word ",", .comma, l.start, l.stop, before⟩ :: done) fuel
    | _ =>
      let arg ← calculationSum block fuel
      calculationArguments block (arg :: done) fuel

/-- A sum in a calculation. -/
def calculationSum (block : Reader Doc) (fuel : Nat) : Reader Shape :=
  match fuel with
  | 0 => failure
  | fuel + 1 => do
    let first ← calculationProduct block fuel
    moreTerms block first fuel

/-- The further terms of a sum in a calculation. -/
def moreTerms (block : Reader Doc) (left : Shape) (fuel : Nat) : Reader Shape :=
  match fuel with
  | 0 => failure
  | fuel + 1 => do
    let l ← peek
    if l.kind == .mark "+" || l.kind == .mark "-" then
      let _ ← next
      let right ← calculationProduct block fuel
      moreTerms block (left.calculation (String.ofList (← textOf l)) right) fuel
    else return left

/-- A product in a calculation. -/
def calculationProduct (block : Reader Doc) (fuel : Nat) : Reader Shape :=
  match fuel with
  | 0 => failure
  | fuel + 1 => do
    let first ← calculationFactor block fuel
    moreFactors block first fuel

/-- The further factors of a product in a calculation. -/
def moreFactors (block : Reader Doc) (left : Shape) (fuel : Nat) : Reader Shape :=
  match fuel with
  | 0 => failure
  | fuel + 1 => do
    let l ← peek
    if l.kind == .mark "*" || l.kind == .mark "/" then
      let _ ← next
      let right ← calculationFactor block fuel
      moreFactors block (left.calculation (String.ofList (← textOf l)) right) fuel
    else return left

/-- A factor in a calculation; its own parentheses are left out. -/
def calculationFactor (block : Reader Doc) (fuel : Nat) : Reader Shape :=
  match fuel with
  | 0 => failure
  | fuel + 1 => do
    let before ← comments
    if ← isMark "(" then
      let opening ← next
      let inner ← calculationSum block fuel
      let close ← expect ")"
      return { inner with start := opening.start, stop := close.stop, before }
    else
      let value ← atom block fuel
      guardThat !(value.isSeparator || value.kind == .slash)
      return value

/-- A value in parentheses. -/
def parentheses (block : Reader Doc) (fuel : Nat) : Reader Doc :=
  match fuel with
  | 0 => failure
  | fuel + 1 => do
    let _ ← expect "("
    if ← isScss then
      if ← eat ")" then return Doc.word "()"
      else
        let broken ← isOnNewLine
        let edge := if broken then Doc.hard else Doc.soft
        let items ← entries block [] fuel
        let _ ← expect ")"
        return .group (Doc.word "(" ++ .nest (edge ++ Doc.join Doc.comma items) ++ edge
          ++ Doc.word ")")
    else
      let value ← operation block 4 true fuel
      guardThat !(value.isSeparator || value.kind == .slash)
      let _ ← expect ")"
      return .group (Doc.bracketed "(" ")" value.doc)

/-- The entries of a map or a list in parentheses. -/
def entries (block : Reader Doc) (done : List Doc) (fuel : Nat) : Reader (List Doc) :=
  match fuel with
  | 0 => failure
  | fuel + 1 => do
    let d ← read
    if ← isMark ")" then return done.reverse
    else
      let key ← dividedList block fuel
      let entry ← (do
        if ← eat ":" then
          let value ← dividedList block fuel
          return d.commentsBefore key.before ++ key.doc ++ Doc.word ": " ++ value.doc
        else return d.commentsBefore key.before ++ key.doc)
      if ← eat "," then entries block (entry :: done) fuel
      else return (entry :: done).reverse

/-- An operation whose operators have at least a level. -/
def operation (block : Reader Doc) (level : Nat) (divides : Bool) (fuel : Nat) : Reader Shape :=
  match fuel with
  | 0 => failure
  | fuel + 1 => do
    if level > closestLevel then atom block fuel
    else
      let first ← operation block (level + 1) divides fuel
      if first.isSeparator || first.kind == .slash || first.kind == .block then return first
      else operands block level divides first fuel

/-- The further operands of an operation. -/
def operands (block : Reader Doc) (level : Nat) (divides : Bool) (left : Shape) (fuel : Nat) :
    Reader Shape :=
  match fuel with
  | 0 => failure
  | fuel + 1 => do
    match ← operator? level divides left with
    | some operator =>
      let right ← operation block (level + 1) divides fuel
      guardThat !(right.isSeparator || right.kind == .slash)
      operands block level divides (left.operation .quantity operator right) fuel
    | none => return left

/-- Values up to a mark that none of them starts with. -/
def values (block : Reader Doc) (done : List Shape) (fuel : Nat) : Reader (List Shape) :=
  match fuel with
  | 0 => failure
  | fuel + 1 => do
    if (← atEnd) || (← isOneOf [";", ")", "]", "\x7d", "!", ":", "..."]) then
      return done.reverse
    else
      let value ← operation block 0 false fuel
      if value.kind == .block then return (value :: done).reverse
      else values block (value :: done) fuel

/-- Values that follow each other without commas. -/
def listItems (block : Reader Doc) (divides : Bool) (done : List Shape) (fuel : Nat) :
    Reader (List Shape) :=
  match fuel with
  | 0 => failure
  | fuel + 1 => do
    if (← atEnd)
        || (← isOneOf [";", ")", "]", "\x7b", "\x7d", "!", ":", ",", "..."]) then
      return done.reverse
    else
      let value ← operation block 0 divides fuel
      listItems block divides (value :: done) fuel

/-- A list of values without commas; at least one. -/
def spaceList (block : Reader Doc) (fuel : Nat) : Reader Shape :=
  match fuel with
  | 0 => failure
  | fuel + 1 => do
    let items ← listItems block false [] fuel
    let d ← read
    match items with
    | [] => failure
    | [only] => return only
    | first :: rest =>
      let separator : Doc := if d.dialect == .scss then .line else .space
      let doc := rest.foldl (fun acc s => acc ++ separator ++ d.commentsBefore s.before ++ s.doc)
        first.doc
      return { first with doc := .group doc, kind := .other, stop := ← position }

/-- A list of values without commas in which a slash divides. -/
def dividedList (block : Reader Doc) (fuel : Nat) : Reader Shape :=
  match fuel with
  | 0 => failure
  | fuel + 1 => do
    let items ← listItems block true [] fuel
    let d ← read
    match items with
    | [] => failure
    | first :: rest =>
      let doc := rest.foldl (fun acc s => acc ++ .line ++ d.commentsBefore s.before ++ s.doc)
        first.doc
      return { first with doc := .group doc, stop := ← position }

/-- A list of values, with or without commas. -/
def commaList (block : Reader Doc) (fuel : Nat) : Reader Shape :=
  match fuel with
  | 0 => failure
  | fuel + 1 => do
    let first ← spaceList block fuel
    let rest ← commaItems block [] fuel
    if rest.isEmpty then return first
    else
      return { first with
        doc := .group (Doc.join (Doc.word "," ++ .turn) (first.doc :: rest))
        kind := .other
        stop := ← position }

/-- The further parts of a list with commas. -/
def commaItems (block : Reader Doc) (done : List Doc) (fuel : Nat) : Reader (List Doc) :=
  match fuel with
  | 0 => failure
  | fuel + 1 => do
    if ← eat "," then
      match ← option (spaceList block fuel) with
      | some s => commaItems block (s.doc :: done) fuel
      | none => return done.reverse
    else return done.reverse

end

end CssNest.Tidy
