import CssNest.Tidy.AtRule

/-!
# Statements

A stylesheet is a sequence of statements, and so is the body of a block: rules,
declarations, at-rules, variables and calls of mixins. Each statement stands on a line of
its own. A comment in the line where a statement ends stays there; an empty line between
two statements stays as one.
-/

namespace CssNest.Tidy

open Reader

/-! ## Sequences -/

/-- A statement or a comment in a sequence. -/
structure Item where
  doc : Doc
  start : Nat
  stop : Nat
  isComment : Bool

/-- Comments as items. -/
def commentItems (d : Draft) (cs : List Comment) : List Item :=
  cs.map fun c => ⟨d.commentDoc c, c.start, c.stop, true⟩

/-- The space before an item that stands behind another one. -/
def itemGap (d : Draft) (before after : Item) : Doc :=
  let lines := d.breaks before.stop after.start
  if after.isComment && lines == 0 then .space
  else if lines > 1 then .blank ++ .hard
  else .hard

/-- Items one below the other. -/
def itemsDoc (d : Draft) : List Item → Doc
  | [] => .empty
  | first :: rest =>
    (rest.foldl (fun (doc, before) item => (doc ++ itemGap d before item ++ item.doc, item))
      (first.doc, first)).1

/-- A block with items in it. -/
def blockDoc (d : Draft) (items : List Item) : Doc :=
  if items.isEmpty then Doc.word "\x7b\x7d"
  else Doc.word "\x7b" ++ .nest (.hard ++ itemsDoc d items) ++ .hard ++ Doc.word "\x7d"

/--
Items up to a closing brace or the end, each read by `one`. Where no block ends an item, a
semicolon or the end of the sequence does.
-/
def sequence (one : Reader Statement) (done : List Item) : Nat → Reader (List Item)
  | 0 => failure
  | fuel + 1 => do
    let d ← read
    let done := (commentItems d (← comments)).reverse ++ done
    if ← eat ";" then sequence one done fuel
    else if (← atEnd) || (← isMark "\x7d") then return done.reverse
    else
      let l ← peek
      moveTo l.start
      let s ← one
      let doc := if s.semicolon then s.doc ++ Doc.word ";" else s.doc
      let behind := (commentItems d (← comments)).reverse
      let done := ⟨doc, s.start, s.stop, false⟩ :: done
      if ← eat ";" then sequence one (behind ++ done) fuel
      else
        guardThat (!s.semicolon || (← atEnd) || (← isMark "\x7d"))
        sequence one done fuel

/-! ## Variables and mixins -/

/-- The parts of a list between its commas. -/
def listParts (block : Reader Doc) (done : List Doc) : Nat → Reader (List Doc)
  | 0 => failure
  | fuel + 1 => do
    let d ← read
    let part ← spaceList block fuel
    let done := (d.commentsBefore part.before ++ part.doc) :: done
    if ← eat "," then
      if (← atEnd) || (← isOneOf [";", "\x7d", "!"]) then return done.reverse
      else listParts block done fuel
    else return done.reverse

/-- The value of a variable, with the space before it. -/
def variableValue (block : Reader Doc) (fuel : Nat) : Reader Doc := do
  match ← listParts block [] fuel with
  | [only] => return .space ++ .nest only
  | parts => return .group (.nest (.line ++ Doc.join Doc.comma parts))

/-- Arguments or parameters of a mixin, behind the opening parenthesis. -/
def mixinArguments (block : Reader Doc) (doc : Doc) : Nat → Reader Doc
  | 0 => failure
  | fuel + 1 => do
    let d ← read
    let l ← peek
    match l.kind with
    | .mark ")" =>
      let _ ← next
      return doc
    | .mark "," | .mark ";" =>
      let _ ← next
      let separator := Doc.text (d.textOf l)
      if ← isMark ")" then mixinArguments block (doc ++ separator) fuel
      else mixinArguments block (doc ++ separator ++ .line) fuel
    | .mark "..." =>
      let _ ← next
      mixinArguments block (doc ++ Doc.word "...") fuel
    | .mark "\x7b" => mixinArguments block (doc ++ (← block)) fuel
    | _ =>
      let behind ← peekBehind l
      if l.kind == .atName && behind.kind == .mark ":" then
        let _ ← next
        let _ ← next
        let value ← either (do return (← spaceList block fuel).doc) block
        mixinArguments block (doc ++ .text (d.textOf l) ++ Doc.word ": " ++ value) fuel
      else
        let value ← spaceList block fuel
        mixinArguments block (doc ++ value.doc) fuel

/-- The parentheses behind the name of a mixin. -/
def mixinParentheses (block : Reader Doc) (fuel : Nat) : Reader Doc := do
  let _ ← expect "("
  if ← eat ")" then return Doc.word "()"
  else
    let body ← mixinArguments block .empty fuel
    return .group (Doc.bracketed "(" ")" body)

/-- The name of a mixin, possibly in namespaces. -/
def mixinPath (doc : Doc) : Nat → Reader Doc
  | 0 => failure
  | fuel + 1 => do
    let l ← peek
    let here ← simple fuel
    guardThat (l.kind == .mark "." || l.kind == .hash || l.kind == .mark "#")
    let doc := doc ++ here
    let l ← peek
    if l.kind == .mark ">" then
      let _ ← next
      mixinPath (doc ++ Doc.word " > ") fuel
    else if l.kind == .mark "." || l.kind == .hash then
      if ← isAdjacent then mixinPath doc fuel
      else mixinPath (doc ++ .space) fuel
    else return doc

/-- The guard of a rule or a mixin. -/
def ruleGuard (fuel : Nat) : Reader Doc := do
  if (← dialect) == .less && (← isNextWord "when") then
    let _ ← next
    return Doc.word " when " ++ (← guardConditions .empty fuel)
  else return .empty

/-- The call of a mixin. -/
def mixinCall (block : Reader Doc) (fuel : Nat) : Reader Statement := do
  let start := (← peek).start
  let path ← mixinPath .empty fuel
  let args ← (do if ← isMark "(" then mixinParentheses block fuel else return Doc.empty)
  let mark ← importance
  return ⟨path ++ args ++ mark, start, ← position, true⟩

/-! ## Statements -/

/-- Comments between a header and its block, each with a space before it. -/
def headerComments : Reader Doc := do
  return (← read).commentsBehind (← comments)

/-- What stands before the block of a rule. -/
def ruleHeader (fuel : Nat) : Reader Doc := do
  let list ← selectorList fuel
  let when ← ruleGuard fuel
  let notes ← headerComments
  guardThat (← isMark "\x7b")
  return list ++ when ++ notes ++ .space

/-- What stands before the block of a mixin. -/
def mixinHeader (fuel : Nat) : Reader Doc := do
  let path ← mixinPath .empty fuel
  let params ← mixinParentheses noBlock fuel
  let when ← ruleGuard fuel
  let notes ← headerComments
  guardThat (← isMark "\x7b")
  return path ++ params ++ when ++ notes ++ .space

/-- The name of a variable behind `@` and its colon. -/
def variableHeader : Reader Doc := do
  let d ← read
  let l ← next
  let known := stylesheetRules.any fun w => ('@' :: w.toList) == lower (d.textOf l)
  guardThat (!known || (← isAdjacent))
  let _ ← expect ":"
  return .text (d.textOf l) ++ Doc.word ":"

/-- The call of a variable that holds a block. -/
def variableCall : Reader Statement := do
  let d ← read
  let l ← next
  guardThat (d.has l.stop '(')
  let _ ← next
  let _ ← expect ")"
  return ⟨.text (d.textOf l) ++ Doc.word "()", l.start, ← position, true⟩

/-- Whether a name is followed by a variable of a module, such as `a.$b`. -/
def isMemberVariable (d : Draft) (l : Lexeme) : Bool :=
  d.dialect == .scss && l.kind == .name && d.has l.stop '.' && d.has (l.stop + 1) '$'

mutual

/-- A block of statements. -/
def block (fuel : Nat) : Reader Doc :=
  match fuel with
  | 0 => failure
  | fuel + 1 => do
    let d ← read
    let _ ← expect "\x7b"
    let items ← sequence (statement fuel) [] fuel
    let _ ← expect "\x7d"
    return blockDoc d items

/-- A statement without its semicolon. -/
def statement (fuel : Nat) : Reader Statement :=
  match fuel with
  | 0 => failure
  | fuel + 1 => do
    let d ← read
    let l ← peek
    let scss := d.dialect == .scss
    match l.kind with
    | .atName =>
      if scss then atRule fuel
      else
        match ← option variableHeader with
        | some header => lessVariable header l.start fuel
        | none => either variableCall (atRule fuel)
    | .variable =>
      guardThat scss
      scssVariable .empty fuel
    | _ =>
      if isMemberVariable d l then
        moveTo (l.stop + 1)
        scssVariable (.text (d.textOf l) ++ Doc.word ".") fuel
      else
        match ← option (ruleHeader fuel) with
        | some header => withBlock header l.start fuel
        | none =>
          match l.kind with
          | .name | .mark "#\x7b" | .mark "@\x7b" | .mark "-" => declaration (block fuel) fuel
          | .mark "." | .hash | .mark "#" =>
            guardThat !scss
            match ← option (mixinHeader fuel) with
            | some header => withBlock header l.start fuel
            | none => mixinCall (block fuel) fuel
          | .mark "&" =>
            guardThat !scss
            let doc ← compound fuel
            return ⟨doc, l.start, ← position, true⟩
          | _ => failure

/-- A statement that ends with a block, behind what stands before it. -/
def withBlock (header : Doc) (start : Nat) (fuel : Nat) : Reader Statement :=
  match fuel with
  | 0 => failure
  | fuel + 1 => do
    let body ← block fuel
    return ⟨header ++ body, start, ← position, false⟩

/-- The declaration of a variable behind `@`, which has been read up to its colon. -/
def lessVariable (header : Doc) (start : Nat) (fuel : Nat) : Reader Statement :=
  match fuel with
  | 0 => failure
  | fuel + 1 => do
    if ← isMark "\x7b" then
      let body ← block fuel
      return ⟨header ++ .space ++ body, start, ← position, false⟩
    else
      let value ← either (variableValue (block fuel) fuel) (do
        return .space ++ (← mixinCall (block fuel) fuel).doc)
      let mark ← importance
      return ⟨header ++ value ++ mark, start, ← position, true⟩

/-- The declaration of a variable behind `$`. -/
def scssVariable (before : Doc) (fuel : Nat) : Reader Statement :=
  match fuel with
  | 0 => failure
  | fuel + 1 => do
    let d ← read
    let l ← next
    let _ ← expect ":"
    let value ← variableValue (block fuel) fuel
    let marks ← flags .empty fuel
    return ⟨before ++ .text (d.textOf l) ++ Doc.word ":" ++ value ++ marks, l.start,
      ← position, true⟩

/-- An at-rule. -/
def atRule (fuel : Nat) : Reader Statement :=
  match fuel with
  | 0 => failure
  | fuel + 1 => do
    let d ← read
    let l ← next
    let label := lower ((d.textOf l).drop 1)
    let notes := d.commentsBehind (← comments)
    moveTo (← peek).start
    let known := stylesheetHeader? label fuel
    let program := if d.dialect == .scss then programHeader? (block fuel) label fuel else none
    let header ← (known.orElse fun _ => program).getD (unknownHeader fuel)
    let head := Doc.word "@" ++ .text label ++ notes ++ header.doc
    let takesBlock := header.body == .block || header.body == .keyframes
      || (header.body == .any && (← isMark "\x7b"))
    if takesBlock then
      let notes ← headerComments
      let body ← if header.body == .keyframes then keyframes fuel else block fuel
      let doc := head ++ notes ++ .space ++ body
      if label == "if".toList && d.dialect == .scss then
        return ⟨← alternatives doc fuel, l.start, ← position, false⟩
      else return ⟨doc, l.start, ← position, false⟩
    else return ⟨head, l.start, ← position, true⟩

/-- The `@else` parts behind an `@if`. -/
def alternatives (doc : Doc) (fuel : Nat) : Reader Doc :=
  match fuel with
  | 0 => failure
  | fuel + 1 => do
    let d ← read
    let l ← peek
    let label := d.textOf l
    if label == "@else".toList || label == "@elseif".toList then
      let _ ← next
      let isIf ← (do if label == "@elseif".toList then return true else eatWord "if")
      if isIf then
        let test ← commaList noBlock fuel
        let body ← block fuel
        alternatives (doc ++ Doc.word " @else if " ++ test.doc ++ .space ++ body) fuel
      else
        let body ← block fuel
        return doc ++ Doc.word " @else " ++ body
    else return doc

/-- A block of keyframes. -/
def keyframes (fuel : Nat) : Reader Doc :=
  match fuel with
  | 0 => failure
  | fuel + 1 => do
    let d ← read
    let _ ← expect "\x7b"
    let items ← sequence (keyframe fuel) [] fuel
    let _ ← expect "\x7d"
    return blockDoc d items

/-- One keyframe, or another statement among keyframes. -/
def keyframe (fuel : Nat) : Reader Statement :=
  match fuel with
  | 0 => failure
  | fuel + 1 => do
    let l ← peek
    let header : Reader Doc := do
      let places ← keyframePlaces [] false fuel
      let notes ← headerComments
      guardThat (← isMark "\x7b")
      return places ++ notes ++ .space
    match ← option header with
    | some header => withBlock header l.start fuel
    | none => statement fuel

end

end CssNest.Tidy
