import CssNest.Tidy.Value

/-!
# Selectors

A selector is a chain of compounds with combinators between them; a compound is a tag with
classes, identifiers, attributes and pseudo-classes. Tags and pseudo-classes are written in
small letters, attribute values in double quotes, and combinators with a space on both
sides. A chain that does not fit has each further compound on a line of its own.
-/

namespace CssNest.Tidy

open Reader

/-- Where no block of statements can stand. -/
def noBlock : Reader Doc := failure

/-! ## Formulas of the form `an+b` -/

/-- A number with its sign in front, which is left out for a number that is not negative. -/
def signed (n : Int) : List Char := (toString n).toList

/-- The formula `an+b`: a part that is zero is left out, and so is a factor of one. -/
def formulaText (a b : Int) : List Char :=
  let first :=
    if a == 0 then [] else if a == 1 then ['n'] else if a == -1 then ['-', 'n']
    else signed a ++ ['n']
  let second := if b == 0 then [] else if b > 0 then '+' :: signed b else signed b
  first ++ second

/-- The number that digits stand for. -/
def digitsValue (cs : List Char) : Nat :=
  cs.foldl (fun n c => 10 * n + (c.toNat - '0'.toNat)) 0

/-- A sign, and what stands behind it. -/
def takeSign : List Char → Int × Bool × List Char
  | '+' :: rest => (1, true, rest)
  | '-' :: rest => (-1, true, rest)
  | rest => (1, false, rest)

/-- A formula without blanks, as it is written. -/
def formula? (cs : List Char) : Option (List Char) :=
  let (sign, _, rest) := takeSign cs
  let digits := rest.takeWhile Char.isDigit
  match rest.dropWhile Char.isDigit with
  | [] => if digits.isEmpty then none else some (signed (sign * digitsValue digits))
  | 'n' :: tail =>
    let a : Int := if digits.isEmpty then sign else sign * digitsValue digits
    match tail with
    | [] => some (formulaText a 0)
    | _ =>
      let (sign', hasSign, number) := takeSign tail
      if hasSign && !number.isEmpty && number.all Char.isDigit then
        some (formulaText a (sign' * digitsValue number))
      else none
  | _ => none

/-- The text of the lexemes up to a closing parenthesis or the word `of`, without blanks. -/
def formulaLexemes (done : List Char) : Nat → Reader (List Char)
  | 0 => failure
  | fuel + 1 => do
    let l ← peek
    if l.kind == .ending || l.kind == .unreadable then failure
    else if l.kind == .mark ")" || (!done.isEmpty && (← isWord l "of")) then return done
    else
      let _ ← next
      formulaLexemes (done ++ (← textOf l)) fuel

/-! ## Readers -/

/-- Whether a lexeme starts a compound. -/
def startsCompound (d : Draft) (l : Lexeme) : Bool :=
  match l.kind with
  | .name | .hash | .placeholder => true
  | .mark s =>
    [".", "[", ":", "::", "*", "&", "|", "#\x7b", "@\x7b"].contains s
      || (s == "#" && d.interpolates l.stop)
  | _ => false

/-- A combinator other than a blank. -/
def combinator? : Reader (Option (List Char)) := do
  let l ← peek
  match l.kind with
  | .mark s =>
    if [">", "+", "~", "||"].contains s then
      let _ ← next
      return some s.toList
    else return none
  | _ => return none

/-- The pseudo-classes whose argument is a list of selectors. -/
def selectorFunctions : List String :=
  ["not", "is", "where", "has", "matches", "any", "-webkit-any", "-moz-any", "current",
    "global", "local", "host", "host-context", "slotted", "cue", "cue-region", "extend"]

/-- The pseudo-classes whose argument is a formula. -/
def formulaFunctions : List String :=
  ["nth-child", "nth-last-child", "nth-of-type", "nth-last-of-type", "nth-col", "nth-last-col"]

/-- The name behind a mark, which it follows without a blank. -/
def attachedName (fuel : Nat) : Reader Name := do
  guardThat (← isAdjacent)
  name noBlock fuel

/-- A name or a star in the place of one. -/
def nameOrStar (fuel : Nat) : Reader Doc := do
  if ← eat "*" then return Doc.word "*"
  else return (← name noBlock fuel).lowered

/-- The tag of a compound, with its namespace. -/
def tagSelector (fuel : Nat) : Reader Doc := do
  let d ← read
  let first ← if ← isMark "|" then pure .empty else nameOrStar fuel
  let here ← position
  if (d.has here '|' || first == .empty) && !d.has (here + 1) '=' && !d.has (here + 1) '|' then
    let _ ← expect "|"
    guardThat (← isAdjacent)
    return first ++ Doc.word "|" ++ (← nameOrStar fuel)
  else return first

/-- The value of an attribute in an attribute selector. -/
def attributeValue (fuel : Nat) : Reader Doc := do
  let d ← read
  let l ← peek
  match l.kind with
  | .string =>
    let _ ← next
    return .text (d.tidyText l)
  | .mark "~" =>
    let _ ← next
    let s ← next
    guardThat (d.dialect == .less && s.kind == .string)
    return Doc.word "~" ++ .text (d.tidyText s)
  | .number | .dimension | .percentage =>
    let _ ← next
    return .text (d.textOf l)
  | .atName | .variable =>
    let _ ← next
    return .text (d.textOf l)
  | _ =>
    let n ← name noBlock fuel
    return Doc.word "\"" ++ n.doc ++ Doc.word "\""

/-- An attribute selector. -/
def bracketSelector (fuel : Nat) : Reader Doc := do
  let _ ← expect "["
  let d ← read
  let first ← if ← eat "*" then pure (Doc.word "*")
    else if ← isMark "|" then pure Doc.empty
    else pure (← name noBlock fuel).doc
  let here ← position
  let label ← (do
    if d.has here '|' && !d.has (here + 1) '=' then
      let _ ← expect "|"
      return first ++ Doc.word "|" ++ (← name noBlock fuel).doc
    else return first)
  if ← eat "]" then return Doc.word "[" ++ label ++ Doc.word "]"
  else
    let m ← next
    guardThat (["=", "~=", "|=", "^=", "$=", "*="].any fun s => m.kind == .mark s)
    let value ← attributeValue fuel
    let modifier ← (do
      if ← isMark "]" then return Doc.empty
      else
        let l ← next
        guardThat (l.kind == .name)
        return .space ++ .text (← textOf l))
    let _ ← expect "]"
    return Doc.word "[" ++ label ++ .text (← textOf m) ++ value ++ modifier ++ Doc.word "]"

/-- The languages of `:lang( … )`. -/
def languages (done : List Doc) : Nat → Reader Doc
  | 0 => failure
  | fuel + 1 => do
    let d ← read
    let l ← peek
    let one ← if l.kind == .string then do
        let _ ← next
        pure (Doc.text (d.tidyText l))
      else do pure (← name noBlock fuel).doc
    if ← eat "," then languages (one :: done) fuel
    else return Doc.join (Doc.word ", ") (one :: done).reverse

/-- Whether a lexeme starts the guard of a rule. -/
def isGuard (l : Lexeme) : Reader Bool := do
  return (← dialect) == .less && (← isWord l "when")

mutual

/-- Selectors with commas between them, and whether a line ends before the second. -/
def selectors (done : List Doc) (broken : Bool) (fuel : Nat) : Reader (List Doc × Bool) :=
  match fuel with
  | 0 => failure
  | fuel + 1 => do
    let d ← read
    let first ← chain fuel
    let first := first ++ (← commentsBeforeComma)
    let here ← position
    if ← eat "," then
      let start := (← peek).start
      let broken := if done.isEmpty then d.breaks here start > 0 else broken
      if (← isMark "\x7b") && d.dialect == .less then return ((first :: done).reverse, broken)
      else selectors (first :: done) broken fuel
    else return ((first :: done).reverse, broken)

/-- A chain of compounds. -/
def chain (fuel : Nat) : Reader Doc :=
  match fuel with
  | 0 => failure
  | fuel + 1 => do
    let d ← read
    let before := d.commentsBefore (← comments)
    match ← combinator? with
    | some c =>
      if startsCompound d (← peek) then
        let first ← compound fuel
        let doc ← chainTail (before ++ .text c ++ .space ++ first) fuel
        return .group doc
      else return before ++ .text c
    | none =>
      let first ← compound fuel
      let doc ← chainTail (before ++ first) fuel
      return .group doc

/-- The further compounds of a chain. -/
def chainTail (doc : Doc) (fuel : Nat) : Reader Doc :=
  match fuel with
  | 0 => failure
  | fuel + 1 => do
    let d ← read
    let before := d.commentsBefore (← comments)
    let apart := !(← isAdjacent)
    match ← combinator? with
    | some c =>
      let between := d.commentsBefore (← comments)
      let doc := doc ++ .turn ++ before ++ .text c ++ .space ++ between
      if startsCompound d (← peek) then
        let next ← compound fuel
        chainTail (doc ++ next) fuel
      else return doc
    | none =>
      let l ← peek
      if apart && startsCompound d l && !(← isGuard l) then
        let next ← compound fuel
        chainTail (doc ++ .turn ++ before ++ next) fuel
      else return doc

/-- A compound. -/
def compound (fuel : Nat) : Reader Doc :=
  match fuel with
  | 0 => failure
  | fuel + 1 => do
    let d ← read
    let l ← peek
    match l.kind with
    | .name | .mark "*" | .mark "|" | .mark "#\x7b" | .mark "@\x7b" =>
      let tag ← tagSelector fuel
      compoundTail tag fuel
    | _ =>
      guardThat (startsCompound d l)
      let first ← simple fuel
      compoundTail first fuel

/-- The further selectors of a compound. -/
def compoundTail (doc : Doc) (fuel : Nat) : Reader Doc :=
  match fuel with
  | 0 => failure
  | fuel + 1 => do
    let d ← read
    let l ← peek
    if (← isAdjacent) && startsCompound d l && l.kind != .name && l.kind != .mark "*"
        && l.kind != .mark "|" then
      let next ← simple fuel
      compoundTail (doc ++ next) fuel
    else return doc

/-- A part of a compound other than its tag. -/
def simple (fuel : Nat) : Reader Doc :=
  match fuel with
  | 0 => failure
  | fuel + 1 => do
    let d ← read
    let l ← peek
    match l.kind with
    | .mark "." =>
      let _ ← next
      let n ← attachedName fuel
      return Doc.word "." ++ n.doc
    | .hash =>
      guardThat !(d.test (l.start + 1) Char.isDigit)
      moveTo (l.start + 1)
      let (body, _) ← namePieces noBlock .empty true fuel
      return Doc.word "#" ++ body
    | .mark "#" =>
      let _ ← next
      let n ← attachedName fuel
      return Doc.word "#" ++ n.doc
    | .placeholder =>
      moveTo (l.start + 1)
      let n ← name noBlock fuel
      return Doc.word "%" ++ n.doc
    | .mark "#\x7b" | .mark "@\x7b" => return (← name noBlock fuel).doc
    | .mark "[" => bracketSelector fuel
    | .mark "&" =>
      let _ ← next
      if d.test l.stop continuesName || d.interpolates l.stop || d.escapes l.stop then
        let (suffix, _) ← namePieces noBlock .empty true fuel
        return Doc.word "&" ++ suffix
      else return Doc.word "&"
    | .mark ":" | .mark "::" =>
      let _ ← next
      let n ← attachedName fuel
      let head := .text (d.textOf l) ++ n.lowered
      if d.has n.stop '(' then
        let _ ← next
        let inner ← pseudoArgument n fuel
        let _ ← expect ")"
        return head ++ Doc.word "(" ++ inner ++ Doc.word ")"
      else return head
    | _ => failure

/-- What stands in the parentheses of a pseudo-class. -/
def pseudoArgument (n : Name) (fuel : Nat) : Reader Doc :=
  match fuel with
  | 0 => failure
  | fuel + 1 => do
    if selectorFunctions.any n.isWord then
      let (list, _) ← selectors [] false fuel
      return Doc.join (Doc.word ", ") list
    else if formulaFunctions.any n.isWord then
      let text := lower (← formulaLexemes [] fuel)
      let head ← if text == "even".toList || text == "odd".toList then pure text
        else match formula? text with
          | some cs => pure cs
          | none => failure
      if ← eatWord "of" then
        let (list, _) ← selectors [] false fuel
        return .text head ++ Doc.word " of " ++ Doc.join (Doc.word ", ") list
      else return .text head
    else if n.isWord "lang" then languages [] fuel
    else
      let parts ← lexemes [] [] [] fuel
      return spaced parts

end

/-- A list of selectors: all of them on one line or each on its own. -/
def selectorList (fuel : Nat) : Reader Doc := do
  let (list, broken) ← selectors [] false fuel
  let separator := Doc.word "," ++ if broken then .hard else .line
  return .group (Doc.join separator list)

/-! ## Keyframes -/

/-- The place of a keyframe: `from`, `to` or a percentage. -/
def keyframePlace (fuel : Nat) : Reader Doc := do
  let d ← read
  let l ← peek
  match l.kind with
  | .percentage =>
    let _ ← next
    return .text (d.tidyText l)
  | .variable =>
    guardThat (d.dialect == .scss)
    let _ ← next
    return .text (d.textOf l)
  | _ =>
    let n ← name noBlock fuel
    return n.lowered

/-- The places of a keyframe with commas between them. -/
def keyframePlaces (done : List Doc) (broken : Bool) : Nat → Reader Doc
  | 0 => failure
  | fuel + 1 => do
    let d ← read
    let first ← keyframePlace fuel
    let first := first ++ (← commentsBeforeComma)
    let here ← position
    if ← eat "," then
      let start := (← peek).start
      let broken := if done.isEmpty then d.breaks here start > 0 else broken
      keyframePlaces (first :: done) broken fuel
    else
      let separator := Doc.word "," ++ if broken then .hard else .line
      return .group (Doc.join separator (first :: done).reverse)

end CssNest.Tidy
