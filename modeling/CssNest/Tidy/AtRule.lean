import CssNest.Tidy.Condition

/-!
# Headers of at-rules

What stands between the name of an at-rule and its block or semicolon. An at-rule that is
not known keeps its header as it is, apart from blanks, strings and numbers.
-/

namespace CssNest.Tidy

open Reader

/-- What follows the header of an at-rule. -/
inductive Body where
  | semicolon
  | block
  /-- A block of keyframes. -/
  | keyframes
  /-- A block or a semicolon. -/
  | any
deriving DecidableEq, Repr

/-- The header of an at-rule. -/
structure Header where
  doc : Doc
  body : Body

/-- A header that starts behind a space. -/
def Header.spaced (doc : Doc) (body : Body) : Header := ⟨.space ++ doc, body⟩

/-- The name without the mark of a vendor, such as `-webkit-`. -/
def withoutVendor (cs : List Char) : List Char :=
  match cs with
  | '-' :: rest =>
    match rest.dropWhile (· != '-') with
    | '-' :: word => word
    | _ => cs
  | _ => cs

/-! ## Stylesheet rules -/

/-- An address: a string or `url( … )`. -/
def address (fuel : Nat) : Reader Doc := do
  let d ← read
  let l ← peek
  if l.kind == .string then
    let _ ← next
    return .text (d.tidyText l)
  else
    guardThat (← isWord l "url")
    return (← atom noBlock fuel).doc

/-- The words in parentheses behind `@import`. -/
def importOptions (done : List Doc) : Nat → Reader Doc
  | 0 => failure
  | fuel + 1 => do
    let l ← next
    guardThat (l.kind == .name)
    let done := .text (← textOf l) :: done
    if ← eat "," then importOptions done fuel
    else
      let _ ← expect ")"
      return Doc.word " (" ++ Doc.join (Doc.word ", ") done.reverse ++ Doc.word ")"

/-- What restricts an import: a layer, a condition, media. -/
def importRestrictions (fuel : Nat) : Reader Doc := do
  let d ← read
  let l ← peek
  let layer ← (do
    if ← isWord l "layer" then return .space ++ (← atom noBlock fuel).doc
    else return Doc.empty)
  let l ← peek
  let support ← (do
    if (← isWord l "supports") && d.has l.stop '(' then
      let _ ← next
      let _ ← next
      let inner ← either (condition .supports true fuel) (supportsFeature fuel)
      let _ ← expect ")"
      return Doc.word " supports(" ++ inner ++ Doc.word ")"
    else return Doc.empty)
  let media ← (do
    if (← atEnd) || (← isOneOf [";", "\x7d", ","]) then return Doc.empty
    else return .space ++ (← mediaQueries [] fuel))
  return layer ++ support ++ media

/-- Further imports behind commas. -/
def moreImports (doc : Doc) : Nat → Reader Doc
  | 0 => failure
  | fuel + 1 => do
    if (← isScss) && (← eat ",") then
      let here ← address fuel
      moreImports (doc ++ Doc.word "," ++ .turn ++ here) fuel
    else return doc

/-- The header of `@import`. -/
def importHeader (fuel : Nat) : Reader Header := do
  let options ← (do
    if (← dialect) == .less && (← eat "(") then importOptions [] fuel
    else return Doc.empty)
  let first ← address fuel
  if ← isMark "," then
    let all ← moreImports first fuel
    return ⟨options ++ .space ++ .group all, .semicolon⟩
  else
    let rest ← importRestrictions fuel
    return ⟨options ++ .space ++ first ++ rest, .semicolon⟩

/-- The header of `@namespace`. -/
def namespaceHeader (fuel : Nat) : Reader Header := do
  let l ← peek
  if l.kind == .name && !(← isWord l "url") then
    let label ← name noBlock fuel
    return .spaced (label.doc ++ .space ++ (← address fuel)) .semicolon
  else return .spaced (← address fuel) .semicolon

/-- The further words of a layer's name. -/
def layerWords (doc : Doc) : Nat → Reader Doc
  | 0 => failure
  | fuel + 1 => do
    if (← isMark ".") && (← isAdjacent) then
      let _ ← next
      let n ← attachedName fuel
      layerWords (doc ++ Doc.word "." ++ n.doc) fuel
    else return doc

/-- The names of layers. -/
def layerNames (done : List Doc) : Nat → Reader Doc
  | 0 => failure
  | fuel + 1 => do
    let n ← name noBlock fuel
    let words ← layerWords n.doc fuel
    if ← eat "," then layerNames (words :: done) fuel
    else return .group (Doc.join (Doc.word "," ++ .turn) (words :: done).reverse)

/-- The header of `@layer`. -/
def layerHeader (fuel : Nat) : Reader Header := do
  if ← isMark "\x7b" then return ⟨.empty, .block⟩
  else return .spaced (← layerNames [] fuel) .any

/-- The pseudo-classes of a page. -/
def pagePseudos (doc : Doc) : Nat → Reader Doc
  | 0 => failure
  | fuel + 1 => do
    if ← isMark ":" then
      let _ ← next
      let n ← attachedName fuel
      pagePseudos (doc ++ Doc.word ":" ++ n.lowered) fuel
    else return doc

/-- The pages of `@page`. -/
def pages (done : List Doc) : Nat → Reader Doc
  | 0 => failure
  | fuel + 1 => do
    let label ← (do
      if ← isMark ":" then return Doc.empty
      else return (← name noBlock fuel).doc)
    let page ← pagePseudos label fuel
    if ← eat "," then pages (page :: done) fuel
    else return .group (Doc.join Doc.comma (page :: done).reverse)

/-- The header of `@page`. -/
def pageHeader (fuel : Nat) : Reader Header := do
  if ← isMark "\x7b" then return ⟨.empty, .block⟩
  else return .spaced (← pages [] fuel) .block

/-- The header of `@scope`. -/
def scopeHeader (fuel : Nat) : Reader Header := do
  let limit : Reader Doc := do
    let _ ← expect "("
    let (list, _) ← selectors [] false fuel
    let _ ← expect ")"
    return Doc.word " (" ++ Doc.join (Doc.word ", ") list ++ Doc.word ")"
  let first ← (do if ← isMark "(" then limit else return Doc.empty)
  if ← eatWord "to" then return ⟨first ++ Doc.word " to" ++ (← limit), .block⟩
  else return ⟨first, .block⟩

/-- The header of `@keyframes`. -/
def keyframesHeader (fuel : Nat) : Reader Header := do
  let d ← read
  let l ← peek
  match l.kind with
  | .string =>
    let _ ← next
    return .spaced (.text (d.tidyText l)) .keyframes
  | .atName | .variable =>
    let _ ← next
    return .spaced (.text (d.textOf l)) .keyframes
  | _ => return .spaced (← name noBlock fuel).doc .keyframes

/-- The header of `@container`. -/
def containerHeader (fuel : Nat) : Reader Header := do
  let d ← read
  let l ← peek
  let hasLabel := l.kind == .name && !d.has l.stop '(' && !(← isWord l "not")
  let label ← (do
    if hasLabel then return (← name noBlock fuel).doc ++ .space
    else return Doc.empty)
  if hasLabel && (← isMark "\x7b") then return .spaced (.text (d.textOf l)) .block
  else return .spaced (label ++ (← condition .container true fuel)) .block

/-- The at-rules whose header is a name. -/
def namedRules : List String :=
  ["property", "counter-style", "color-profile", "font-palette-values", "position-fallback",
    "position-try"]

/-- The at-rules without a header. -/
def bareRules : List String := ["font-face", "viewport", "starting-style", "view-transition"]

/-- The at-rules that have a header of their own in both dialects. -/
def stylesheetRules : List String :=
  ["charset", "import", "namespace", "layer", "page", "scope", "media", "supports", "container",
    "keyframes", "custom-media", "custom-selector", "font-feature-values"]
  ++ namedRules ++ bareRules

/-- The header of an at-rule of a stylesheet; nothing if it is not known. -/
def stylesheetHeader? (label : List Char) (fuel : Nat) : Option (Reader Header) :=
  let word := String.ofList label
  let short := String.ofList (withoutVendor label)
  if word == "charset" then some do
    let l ← next
    guardThat (l.kind == .string)
    return .spaced (.text (← textOf l)) .semicolon
  else if word == "import" then some (importHeader fuel)
  else if word == "namespace" then some (namespaceHeader fuel)
  else if word == "layer" then some (layerHeader fuel)
  else if word == "page" then some (pageHeader fuel)
  else if word == "scope" then some (scopeHeader fuel)
  else if word == "media" then some do return .spaced (← mediaQueries [] fuel) .block
  else if word == "supports" then some do return .spaced (← condition .supports true fuel) .block
  else if word == "container" then some (containerHeader fuel)
  else if short == "keyframes" then some (keyframesHeader fuel)
  else if word == "custom-media" then some do
    let n ← name noBlock fuel
    return .spaced (n.doc ++ .space ++ (← mediaQueries [] fuel)) .semicolon
  else if word == "custom-selector" then some do
    let _ ← expect ":"
    let n ← attachedName fuel
    return .spaced (Doc.word ":" ++ n.doc ++ .space ++ (← selectorList fuel)) .semicolon
  else if bareRules.contains short then some do return ⟨.empty, .block⟩
  else if namedRules.contains word then some do
    return .spaced (← name noBlock fuel).doc .block
  else none

/-- The header of an at-rule that is not known. -/
def unknownHeader (fuel : Nat) : Reader Header := do
  let parts ← lexemes [";", "\x7b"] [] [] fuel
  if parts.isEmpty then return ⟨.empty, .any⟩
  else return .spaced (spaced parts) .any

/-! ## Rules of a program -/

/-- A list of values, with or without commas, behind a space. -/
def expressionHeader (body : Body) (fuel : Nat) : Reader Header := do
  return .spaced (← commaList noBlock fuel).doc body

/-- Variables with commas between them. -/
def variableNames (done : List Doc) : Nat → Reader Doc
  | 0 => failure
  | fuel + 1 => do
    let l ← next
    guardThat (l.kind == .variable)
    let done := .text (← textOf l) :: done
    if ← eat "," then variableNames done fuel
    else return Doc.join (Doc.word ", ") done.reverse

/-- The header of `@each`. -/
def eachHeader (fuel : Nat) : Reader Header := do
  let names ← variableNames [] fuel
  guardThat (← eatWord "in")
  let list ← commaList noBlock fuel
  return .spaced (names ++ Doc.word " in " ++ list.doc) .block

/-- The header of `@for`. -/
def forHeader (fuel : Nat) : Reader Header := do
  let l ← next
  guardThat (l.kind == .variable)
  guardThat (← eatWord "from")
  let first ← operation noBlock 4 true fuel
  let bound ← peek
  guardThat ((← eatWord "through") || (← eatWord "to"))
  let last ← operation noBlock 4 true fuel
  return .spaced (.text (← textOf l) ++ Doc.word " from " ++ first.doc ++ .space
    ++ .text (← textOf bound) ++ .space ++ last.doc) .block

/-- A name, possibly of a module's member, with arguments if there are some. -/
def callable (block : Reader Doc) (fuel : Nat) : Reader Doc := do
  let n ← name noBlock fuel
  let full ← (do
    if (← isMark ".") && (← isAdjacent) then
      let _ ← next
      return n.doc ++ Doc.word "." ++ (← attachedName fuel).doc
    else return n.doc)
  if ← isMark "(" then return full ++ (← call block none fuel)
  else return full

/-- The header of `@include`. -/
def includeHeader (block : Reader Doc) (fuel : Nat) : Reader Header := do
  let callee ← callable block fuel
  if ← eatWord "using" then
    return .spaced (callee ++ Doc.word " using " ++ (← call noBlock none fuel)) .block
  else return .spaced callee .any

/-- The header of `@extend`. -/
def extendHeader (fuel : Nat) : Reader Header := do
  let list ← selectorList fuel
  return .spaced (list ++ (← flags .empty fuel)) .semicolon

/-- Words and variables up to the end of a statement, such as `show a, b`. -/
def wordRun (doc : Doc) (attached : Bool) : Nat → Reader Doc
  | 0 => failure
  | fuel + 1 => do
    let d ← read
    let l ← peek
    match l.kind with
    | .name | .variable | .mark "*" =>
      let _ ← next
      let d' := Doc.text (d.textOf l)
      wordRun (doc ++ (if attached then .empty else .space) ++ d')
        (d.has l.stop '*') fuel
    | .mark "," =>
      let _ ← next
      wordRun (doc ++ Doc.word ",") false fuel
    | .mark "(" =>
      wordRun (doc ++ .space ++ (← parentheses noBlock fuel)) false fuel
    | _ => return doc

/-- The header of `@use` and `@forward`. -/
def moduleHeader (fuel : Nat) : Reader Header := do
  let first ← address fuel
  return ⟨← wordRun (.space ++ first) false fuel, .semicolon⟩

/-- The header of `@at-root`. -/
def atRootHeader (fuel : Nat) : Reader Header := do
  if ← isMark "\x7b" then return ⟨.empty, .block⟩
  else if ← isMark "(" then return .spaced (← parentheses noBlock fuel) .block
  else return .spaced (← selectorList fuel) .block

/-- The header of an at-rule of SCSS; nothing if it is not known. -/
def programHeader? (block : Reader Doc) (label : List Char) (fuel : Nat) :
    Option (Reader Header) :=
  let word := String.ofList label
  if word == "if" || word == "while" then some (expressionHeader .block fuel)
  else if word == "return" || word == "debug" || word == "warn" || word == "error" then
    some (expressionHeader .semicolon fuel)
  else if word == "each" then some (eachHeader fuel)
  else if word == "for" then some (forHeader fuel)
  else if word == "include" then some (includeHeader block fuel)
  else if word == "mixin" || word == "function" then some do
    return .spaced (← callable noBlock fuel) .block
  else if word == "content" then some do
    if ← isMark "(" then return ⟨← call noBlock none fuel, .semicolon⟩
    else return ⟨.empty, .semicolon⟩
  else if word == "extend" then some (extendHeader fuel)
  else if word == "use" || word == "forward" then some (moduleHeader fuel)
  else if word == "at-root" then some (atRootHeader fuel)
  else none

end CssNest.Tidy
