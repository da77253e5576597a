import CssNest.Tidy.Declaration
import CssNest.Tidy.Selector

/-!
# Conditions

Media queries, and the conditions of `@supports` and `@container`, are features in
parentheses that are joined by `and`, `or` and `not`. One condition has only one of `and`
and `or` at a time, and `not` stands alone.
-/

namespace CssNest.Tidy

open Reader

/-- The value of a feature, or two with a slash between them. -/
def featureValue (fuel : Nat) : Reader Doc := do
  let value ← operation noBlock 4 false fuel
  guardThat !(value.isSeparator || value.kind == .slash)
  if ← eat "/" then
    let below ← operation noBlock 4 false fuel
    guardThat !(below.isSeparator || below.kind == .slash)
    return value.doc ++ Doc.word " / " ++ below.doc
  else return value.doc

/-- A comparison of a range. -/
def comparison? : Reader (Option Doc) := do
  let l ← peek
  match l.kind with
  | .mark s =>
    if ["<", ">", "<=", ">=", "="].contains s then
      let _ ← next
      return some (Doc.word s)
    else return none
  | _ => return none

/-- A feature of a medium, without its parentheses. -/
def mediaFeature (fuel : Nat) : Reader Doc := do
  let l ← peek
  let behind ← peekBehind l
  if (l.kind == .variable || l.kind == .atName) && behind.kind == .mark ":" then
    let _ ← next
    let _ ← next
    return .text (← textOf l) ++ Doc.word ": " ++ (← featureValue fuel)
  else
    let plain ← option (do
      let n ← name noBlock fuel
      let _ ← expect ":"
      return n.doc)
    match plain with
    | some label => return label ++ Doc.word ": " ++ (← featureValue fuel)
    | none =>
      let first ← featureValue fuel
      match ← comparison? with
      | none => return first
      | some c =>
        let second ← featureValue fuel
        match ← comparison? with
        | none => return first ++ .space ++ c ++ .space ++ second
        | some c' =>
          let third ← featureValue fuel
          return first ++ .space ++ c ++ .space ++ second ++ .space ++ c' ++ .space ++ third

/-- A declaration in parentheses, without them. -/
def supportsFeature (fuel : Nat) : Reader Doc := do
  return (← declaration noBlock fuel).doc

/-- Which conditions are read. -/
inductive Query where
  | media
  | supports
  | container
deriving DecidableEq, Repr

/-- What stands alone in parentheses. -/
def Query.feature (q : Query) (fuel : Nat) : Reader Doc :=
  match q with
  | .media => mediaFeature fuel
  | .supports => supportsFeature fuel
  | .container => mediaFeature fuel

mutual

/-- A condition, possibly with several parts. -/
def condition (q : Query) (allowOr : Bool) (fuel : Nat) : Reader Doc :=
  match fuel with
  | 0 => failure
  | fuel + 1 => do
    let l ← peek
    if ← isWord l "not" then
      let _ ← next
      let inner ← conditionPart q fuel
      return .text (← textOf l) ++ .space ++ inner
    else
      let first ← conditionPart q fuel
      let l ← peek
      if ← isWord l "and" then conditionTail q "and" first fuel
      else if allowOr && (← isWord l "or") then conditionTail q "or" first fuel
      else return first

/-- The further parts of a condition, all with the same word before them. -/
def conditionTail (q : Query) (word : String) (doc : Doc) (fuel : Nat) : Reader Doc :=
  match fuel with
  | 0 => failure
  | fuel + 1 => do
    let l ← peek
    if ← isWord l word then
      let _ ← next
      let part ← conditionPart q fuel
      conditionTail q word (doc ++ .space ++ .text (← textOf l) ++ .group .turn ++ part) fuel
    else return doc

/-- A part of a condition in its parentheses, or a function call. -/
def conditionPart (q : Query) (fuel : Nat) : Reader Doc :=
  match fuel with
  | 0 => failure
  | fuel + 1 => do
    let d ← read
    let l ← peek
    match l.kind with
    | .mark "(" =>
      let _ ← next
      let alone : Reader Doc := do
        let feature ← q.feature fuel
        guardThat (← isMark ")")
        return feature
      let inner ← either alone (condition q true fuel)
      let _ ← expect ")"
      return Doc.word "(" ++ inner ++ Doc.word ")"
    | .name =>
      guardThat (d.has l.stop '(')
      if (← isWord l "selector") && q == .supports then
        let _ ← next
        let _ ← next
        let inner ← chain fuel
        let _ ← expect ")"
        return .text (d.textOf l) ++ Doc.word "(" ++ inner ++ Doc.word ")"
      else if (← isWord l "style") && q == .container then
        let _ ← next
        let _ ← next
        let inner ← either (supportsFeature fuel) (condition q true fuel)
        let _ ← expect ")"
        return .text (d.textOf l) ++ Doc.word "(" ++ inner ++ Doc.word ")"
      else return (← atom noBlock fuel).doc
    | .variable | .atName =>
      let _ ← next
      return .text (d.textOf l)
    | .mark "~" => return (← atom noBlock fuel).doc
    | _ => return (← name noBlock fuel).doc

end

/-- The words that cannot name a medium. -/
def reservedMedia : List String := ["not", "only", "and", "or", "layer"]

/-- Whether a lexeme starts a condition, and not the name of a medium. -/
def startsCondition (l : Lexeme) : Reader Bool := do
  if l.kind == .mark "(" then return true
  else if ← isWord l "not" then return (← peekBehind l).kind == .mark "("
  else return false

/-- A query with the name of a medium. -/
def mediumQuery (fuel : Nat) : Reader Doc := do
  let d ← read
  let l ← peek
  let modifier ← (do
    if (← isWord l "not") || (← isWord l "only") then
      let _ ← next
      return .text (d.textOf l) ++ .space
    else return Doc.empty)
  let l ← peek
  let medium ← match l.kind with
    | .variable | .atName => do
      let _ ← next
      pure (Doc.text (d.textOf l))
    | .mark "~" => do pure (← atom noBlock fuel).doc
    | _ => do
      let n ← name noBlock fuel
      guardThat !(reservedMedia.any n.isWord)
      pure n.doc
  let l ← peek
  if ← isWord l "and" then
    let _ ← next
    let rest ← condition .media false fuel
    return .group (modifier ++ medium ++ .space ++ .text (d.textOf l) ++ .turn ++ .nest rest)
  else return modifier ++ medium

/-- A media query. -/
def mediaQuery (fuel : Nat) : Reader Doc := do
  if ← startsCondition (← peek) then condition .media true fuel
  else mediumQuery fuel

/-- Media queries with commas between them. -/
def mediaQueries (done : List Doc) : Nat → Reader Doc
  | 0 => failure
  | fuel + 1 => do
    let before := (← read).commentsBefore (← comments)
    let query ← mediaQuery fuel
    let query := before ++ query ++ (← commentsBeforeComma)
    if ← eat "," then mediaQueries (query :: done) fuel
    else return .nest (.group (Doc.join Doc.comma (query :: done).reverse))

/-! ## Guards -/

/-- The comparison in a guard. -/
def guardComparison? : Reader (Option Doc) := do
  if (← isMark "=") && (← peekBehind (← peek)).kind == .mark "<" then
    let _ ← next
    let _ ← next
    return some (Doc.word "=<")
  else comparison?

mutual

/-- The conditions of a guard, with `and`, `or` or commas between them. -/
def guardConditions (doc : Doc) (fuel : Nat) : Reader Doc :=
  match fuel with
  | 0 => failure
  | fuel + 1 => do
    let part ← guardPart fuel
    let doc := doc ++ part
    let l ← peek
    if (← isWord l "and") || (← isWord l "or") then
      let _ ← next
      guardConditions (doc ++ .space ++ .text (← textOf l) ++ .space) fuel
    else if ← eat "," then guardConditions (doc ++ Doc.word ", ") fuel
    else return doc

/-- One condition of a guard. -/
def guardPart (fuel : Nat) : Reader Doc :=
  match fuel with
  | 0 => failure
  | fuel + 1 => do
    if ← eatWord "not" then
      let inner ← guardPart fuel
      return Doc.word "not " ++ inner
    else if ← isMark "(" then
      let _ ← next
      let alone : Reader Doc := do
        let inner ← guardTest fuel
        guardThat (← isMark ")")
        return inner
      let inner ← either alone (guardConditions .empty fuel)
      let _ ← expect ")"
      return Doc.word "(" ++ inner ++ Doc.word ")"
    else
      let l ← peek
      guardThat (← isWord l "default")
      return (← atom noBlock fuel).doc

/-- A comparison of two values, or one value. -/
def guardTest (fuel : Nat) : Reader Doc :=
  match fuel with
  | 0 => failure
  | fuel + 1 => do
    let first ← operation noBlock 4 true fuel
    guardThat !first.isSeparator
    match ← guardComparison? with
    | none => return first.doc
    | some c =>
      let second ← operation noBlock 4 true fuel
      guardThat !second.isSeparator
      return first.doc ++ .space ++ c ++ .space ++ second.doc

end

end CssNest.Tidy
