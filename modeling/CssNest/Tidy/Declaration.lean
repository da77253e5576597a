import CssNest.Tidy.Value

/-!
# Declarations

A declaration is a property with its values. The values follow each other with one space;
those that do not fit go on in the next line. A list with commas that does not fit has each
part on a line of its own. A slash keeps to its neighbours if it did so before.

The values of a custom property are left as they are, apart from blanks, strings and
numbers.
-/

namespace CssNest.Tidy

open Reader

/-- A statement, with the stretch of the draft it stands for. -/
structure Statement where
  doc : Doc
  start : Nat
  stop : Nat
  /-- Whether it ends with a semicolon. -/
  semicolon : Bool

/-! ## Layout of values -/

/-- Whether a value keeps to the one before it. -/
def isClose (p s : Shape) (behind : Option Shape) (slashApart : Bool) : Bool :=
  if s.isSeparator then true
  else if s.kind == .slash then p.stop == s.start && (behind.map (·.start == s.stop)).getD true
  else p.kind == .slash && !slashApart && p.stop == s.start

/-- Values one after the other; `slashApart` if there are blanks before a slash in front. -/
def valueRun (d : Draft) (before : Option Shape) (slashApart : Bool) : List Shape → Doc
  | [] => .empty
  | s :: rest =>
    let body := d.commentsBefore s.before ++ s.doc
    match before with
    | none => body ++ valueRun d (some s) false rest
    | some p =>
      let doc : Doc :=
        if isClose p s rest.head? slashApart then body
        else if s.kind == .block then .space ++ body
        else .group (.turn ++ body)
      doc ++ valueRun d (some s) (s.kind == .slash && p.stop != s.start) rest

/-- The parts of a list with commas, each part with the comma behind it. -/
def commaParts (d : Draft) : List Shape → List Shape → List Doc
  | [], part => if part.isEmpty then [] else [valueRun d none false part.reverse]
  | s :: rest, part =>
    if s.kind == .comma then valueRun d none false (s :: part).reverse :: commaParts d rest []
    else commaParts d rest (s :: part)

/-- The properties that set up a grid. -/
def gridProperties : List String :=
  ["grid", "grid-area", "grid-template", "grid-template-areas", "grid-template-columns",
    "grid-template-rows"]

/-- The values of a grid, all apart, which keep the line breaks between them. -/
def gridRun (d : Draft) (values : List Shape) : Doc :=
  let step (state : Doc × Option Shape) (s : Shape) : Doc × Option Shape :=
    let gap : Doc := match state.2 with
      | none => .empty
      | some p =>
        if d.breaks p.stop s.start > 0 then .nest .hard else .space
    (state.1 ++ gap ++ d.commentsBefore s.before ++ s.doc, some s)
  (values.foldl step (.empty, none)).1

/-- Whether a line ends between two of some values. -/
def hasBreak (d : Draft) (values : List Shape) : Bool :=
  match values with
  | [] => false
  | [_] => false
  | a :: b :: rest => d.breaks a.stop b.start > 0 || hasBreak d (b :: rest)

/--
The values of a property, with the space before them. The sources of a font always have
lines of their own if there are several.
-/
def valuesDoc (d : Draft) (property : Option String) (values : List Shape) : Doc :=
  let hasComma := values.any (·.kind == .comma)
  if hasComma && property == some "src" then
    .nest (.hard ++ Doc.join .hard (commaParts d values []))
  else if (property.map gridProperties.contains).getD false then
    let edge : Doc := if hasBreak d values then .nest .hard else .turn
    .group (edge ++ gridRun d values)
  else if hasComma then
    .group (.nest (.line ++ Doc.join .line (commaParts d values [])))
  else .space ++ valueRun d none false values

/-! ## Readers -/

/-- Reads what stands behind an exclamation mark, such as `!important`. -/
def flag : Reader Doc := do
  let _ ← expect "!"
  let l ← next
  guardThat (l.kind == .name)
  return Doc.word "!" ++ .text (lower (← textOf l))

/-- Reads any number of flags, each with a space before it. -/
def flags (doc : Doc) : Nat → Reader Doc
  | 0 => failure
  | fuel + 1 => do
    if ← isMark "!" then
      let f ← flag
      flags (doc ++ .space ++ f) fuel
    else return doc

/-- Reads `!important`, if it comes next. -/
def importance : Reader Doc := do
  if ← isMark "!" then
    let notes := (← read).commentsBehind (← comments)
    let _ ← next
    guardThat (← eatWord "important")
    return notes ++ Doc.word " !important"
  else return .empty

/-- The mark behind a property whose values are added to earlier ones. -/
def mergeMark : Reader Doc := do
  let d ← read
  let here ← position
  if d.dialect == .less && d.has here '+' then
    if d.hasText here "+_:" then
      moveTo (here + 2)
      return Doc.word "+_"
    else if d.hasText here "+:" then
      moveTo (here + 1)
      return Doc.word "+"
    else return .empty
  else return .empty

/-- Whether the values that come next are a filter in its old spelling. -/
def isLegacyFilter : Reader Bool := do
  let l ← peek
  return (← isWord l "progid") && (← peekBehind l).kind == .mark ":"

/-- Reads a declaration without a semicolon. -/
def declaration (block : Reader Doc) (fuel : Nat) : Reader Statement := do
  let d ← read
  let property ← name block fuel
  let merge ← mergeMark
  let notes := d.commentsBehind (← comments)
  let _ ← expect ":"
  let small := property.literal.map lower
  let isCustom := (property.literal.map fun cs => cs.take 2 == ['-', '-']).getD false
  let isFilter := small == some "filter".toList && (← isLegacyFilter)
  let label := if isCustom then property.doc else property.lowered
  let head := label ++ merge ++ notes ++ Doc.word ":"
  if isCustom || isFilter then
    let parts ← lexemes [";"] [] [] fuel
    return ⟨head ++ .space ++ spaced parts, property.start, ← position, true⟩
  else
    let values ← values block [] fuel
    let endsWithBlock := (values.getLast?.map (·.kind == .block)).getD false
    let mark ← importance
    let body := valuesDoc d (small.map String.ofList) values
    return ⟨head ++ body ++ mark, property.start, ← position, !endsWithBlock⟩

end CssNest.Tidy
