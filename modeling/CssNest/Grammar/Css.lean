import CssNest.Grammar.Basic

/-!
# The grammar of stylesheets

CSS as it is found in the wild, nested rules included. Comments may stand anywhere.
Two tokens are not given by patterns, because blanks and colons mean different things
in selectors and in declarations: the blank between a selector and its descendant, and
the colon of a pseudo-class. They are found by looking ahead.
-/

namespace CssNest.Css

open Grammar

/-- The tokens; of two that fit one text equally well the earlier is taken. -/
inductive Terminal where
  | atImport | comma | semicolon | atMedia | atCharset | atNamespace | atKeyframes
  | vendorKeyframes | openBrace | closeBrace | fromWord | toWord | atSupports | ampersand
  | star | dot | hasWord | notWord | isWord | whereWord | hostWord | hostContext | nthChild
  | nthLastChild | doubleColon | hash | attributeOpen | equals | tildeEquals | caretEquals
  | barEquals | starEquals | dollarEquals | closeBracket | greater | tilde | plus | bar
  | argumentOpen | closeParen | evenWord | oddWord | ofWord | nthFormula | colon | important
  | openParen | andWord | orWord | onlyWord | selectorWord | hexDigits | singleQuote
  | singleContent | doubleQuote | doubleContent | escape | integer | float | unit | openBracket
  | minus | slash | identifier | atKeyword | lineComment | blockComment | plainValue
  | descendant | pseudoColon
deriving DecidableEq, Repr

namespace Terminal

/-- Every token, in order. -/
def all : List Terminal :=
  [atImport, comma, semicolon, atMedia, atCharset, atNamespace, atKeyframes,
    vendorKeyframes, openBrace, closeBrace, fromWord, toWord, atSupports, ampersand,
    star, dot, hasWord, notWord, isWord, whereWord, hostWord, hostContext, nthChild,
    nthLastChild, doubleColon, hash, attributeOpen, equals, tildeEquals, caretEquals,
    barEquals, starEquals, dollarEquals, closeBracket, greater, tilde, plus, bar,
    argumentOpen, closeParen, evenWord, oddWord, ofWord, nthFormula, colon, important,
    openParen, andWord, orWord, onlyWord, selectorWord, hexDigits, singleQuote,
    singleContent, doubleQuote, doubleContent, escape, integer, float, unit, openBracket,
    minus, slash, identifier, atKeyword, lineComment, blockComment, plainValue,
    descendant, pseudoColon]

/-- The place of a token in the table. -/
def index (t : Terminal) : Nat := t.ctorIdx

/-- A fixed text that shows as itself. -/
def fixed (text : String) : TokenSpec :=
  { kind := some (.literal text), pattern := some (.word text), rank := 2 }

/-- A fixed text that shows under a name. -/
def named (name text : String) : TokenSpec :=
  { kind := some (.named name), pattern := some (.word text), rank := 2 }

/-- A token with a pattern, shown under a name if it has one. -/
def scanned (name : Option String) (p : Pattern) : TokenSpec :=
  { kind := name.map .named, pattern := some p }

/-- The blanks of CSS. -/
def blanks : CharClass := [(0x09, 0x0D), (0x20, 0x20)]

/-- Decimal digits. -/
def digit : Pattern := .chars [(0x30, 0x39)]

/-- Hexadecimal digits. -/
def hexDigit : CharClass := [(0x30, 0x39), (0x41, 0x46), (0x61, 0x66)]

/-- The letters of ASCII. -/
def letter : CharClass := [(0x41, 0x5A), (0x61, 0x7A)]

/-- The characters of a text, as a class. -/
def these (text : String) : CharClass := CharClass.ofString text

/-- One of the characters of a text. -/
def oneOf (text : String) : Pattern := .chars (these text)

/-- A plus or minus sign, if there is one. -/
def sign : Pattern := .optional (oneOf "+-")

/-- The exponent of a number. -/
def exponent : Pattern := .all [oneOf "eE", .optional (.word "-"), .some digit]

/-- Names: a letter or `_`, after at most one dash, or two dashes. -/
def identifierPattern : Pattern :=
  .seq
    (.alt (.word "--") (.seq (.optional (.word "-"))
      (.chars (letter ++ these "_" ++ [(0xA0, 0xFF)]))))
    (.many (.chars (letter ++ [(0x30, 0x39)] ++ these "-_" ++ [(0xA0, 0xFF)])))

/-- Any character but some. -/
def except (cls : CharClass) : Pattern := .chars (CharClass.complement cls)

/-- A comment in `/*` and `*/`. -/
def commentPattern : Pattern :=
  let notStar : Pattern := except (these "*")
  let stars : Pattern := .some (.word "*")
  .all [.word "/*", .many notStar, stars,
    .many (.all [except (these "/*"), .many notStar, stars]),
    .word "/"]

/-- The characters that end a plain value. -/
def delimiters : CharClass := blanks ++ these ",;!\x7b\x7d()[]"

/-- A slash that does not open a comment and is not the last character of a value. -/
def innerSlash : Pattern :=
  .seq (.word "/") (except (delimiters ++ these "*"))

/-- A value with characters that names do not have. -/
def plainPattern : Pattern :=
  .all [.many (.alt (oneOf "-_") innerSlash), .chars letter,
    .many (.alt (except (delimiters ++ these "/")) innerSlash)]

/-- What each token looks like. -/
def spec : Terminal → TokenSpec
  | atImport => fixed "@import"
  | comma => fixed ","
  | semicolon => fixed ";"
  | atMedia => fixed "@media"
  | atCharset => fixed "@charset"
  | atNamespace => fixed "@namespace"
  | atKeyframes => fixed "@keyframes"
  | vendorKeyframes => scanned "at_keyword"
      (.all [.word "@", .some (.chars ([(0x61, 0x7A)] ++ these "-")), .word "keyframes"])
  | openBrace => fixed "\x7b"
  | closeBrace => fixed "\x7d"
  | fromWord => named "from" "from"
  | toWord => named "to" "to"
  | atSupports => fixed "@supports"
  | ampersand => named "nesting_selector" "&"
  | star => fixed "*"
  | dot => fixed "."
  | hasWord => named "class_name" "has"
  | notWord => fixed "not"
  | isWord => named "class_name" "is"
  | whereWord => named "class_name" "where"
  | hostWord => named "class_name" "host"
  | hostContext => named "class_name" "host-context"
  | nthChild => named "class_name" "nth-child"
  | nthLastChild => named "class_name" "nth-last-child"
  | doubleColon => fixed "::"
  | hash => fixed "#"
  | attributeOpen => { fixed "[" with precedence := 1 }
  | equals => fixed "="
  | tildeEquals => fixed "~="
  | caretEquals => fixed "^="
  | barEquals => fixed "|="
  | starEquals => fixed "*="
  | dollarEquals => fixed "$="
  | closeBracket => fixed "]"
  | greater => fixed ">"
  | tilde => fixed "~"
  | plus => fixed "+"
  | bar => fixed "|"
  | argumentOpen => { fixed "(" with rank := 3, immediate := true }
  | closeParen => fixed ")"
  | evenWord => named "plain_value" "even"
  | oddWord => named "plain_value" "odd"
  | ofWord => fixed "of"
  | nthFormula => scanned "plain_value"
      (.all [.optional (.word "-"), .many digit, .word "n", .many (.chars blanks),
        .optional (.all [.word "+", .many (.chars blanks), .some digit])])
  | colon => fixed ":"
  | important => named "important" "!important"
  | openParen => fixed "("
  | andWord => fixed "and"
  | orWord => fixed "or"
  | onlyWord => fixed "only"
  | selectorWord => fixed "selector"
  | hexDigits =>
      { scanned none (.times (.chars hexDigit) 3 5) with rank := 1, immediate := true }
  | singleQuote => fixed "\x27"
  | singleContent => scanned "string_content"
      (.some (except (these "\\\x27\n")))
  | doubleQuote => fixed "\x22"
  | doubleContent => scanned "string_content"
      (.some (except (these "\\\x22\n")))
  | escape => scanned "escape_sequence"
      (.seq (.word "\\") (.alt
        (.seq (.times (.chars hexDigit) 1 5) (.optional (.chars blanks)))
        (except (hexDigit ++ these "\n\r"))))
  | integer => scanned none (.seq sign (.some digit))
  | float => scanned none (.all [sign, .many digit, .any [
      .seq (.word ".") (.some digit),
      exponent,
      .all [.word ".", .some digit, exponent]]])
  | unit => { scanned "unit" (.some (.chars (letter ++ these "%"))) with
      rank := 1, immediate := true }
  | openBracket => fixed "["
  | minus => fixed "-"
  | slash => fixed "/"
  | identifier => scanned "identifier" identifierPattern
  | atKeyword => scanned "at_keyword"
      (.seq (.word "@") (.some (.chars (letter ++ these "-_"))))
  | lineComment =>
      { scanned "js_comment"
          (.seq (.word "//") (.many (except (these "\n")))) with
        precedence := -1 }
  | blockComment => scanned "comment" commentPattern
  | plainValue => scanned "plain_value" plainPattern
  | descendant => { kind := none, pattern := none }
  | pseudoColon => { kind := some (.literal ":"), pattern := none }

end Terminal

/-- The rules, and after them the repetitions in them. -/
inductive Nonterminal where
  | stylesheet | importStatement | mediaStatement | charsetStatement | namespaceStatement
  | keyframesStatement | keyframeBlockList | keyframeBlock | supportsStatement
  | postcssStatement | atRule | ruleSet | selectors | block | selector | universalSelector
  | classSelector | pseudoClassSelector | nthChildSelector | pseudoElementSelector
  | idSelector | attributeSelector | childSelector | descendantSelector | siblingSelector
  | adjacentSiblingSelector | namespaceSelector | pseudoClassArguments | selectorArguments
  | nthChildArguments | pseudoElementArguments | declaration | lastDeclaration | query
  | featureQuery | parenthesizedQuery | binaryQuery | unaryQuery | selectorQuery | value
  | parenthesizedValue | colorValue | stringValue | integerValue | floatValue | gridValue
  | callExpression | binaryExpression | arguments | className
  | statements | moreQueries | keyframeBlocks | values | moreSelectors | blockItems
  | moreMixed | moreValues | singleParts | doubleParts | moreGridValues | moreArguments
  | nameParts
deriving DecidableEq, Repr

/-- The alternatives of a rule or of a part of one. -/
abbrev Alternatives := List (List Step)

namespace Nonterminal

/-- Every rule, in order. -/
def all : List Nonterminal :=
  [stylesheet, importStatement, mediaStatement, charsetStatement, namespaceStatement,
    keyframesStatement, keyframeBlockList, keyframeBlock, supportsStatement,
    postcssStatement, atRule, ruleSet, selectors, block, selector, universalSelector,
    classSelector, pseudoClassSelector, nthChildSelector, pseudoElementSelector,
    idSelector, attributeSelector, childSelector, descendantSelector, siblingSelector,
    adjacentSiblingSelector, namespaceSelector, pseudoClassArguments, selectorArguments,
    nthChildArguments, pseudoElementArguments, declaration, lastDeclaration, query,
    featureQuery, parenthesizedQuery, binaryQuery, unaryQuery, selectorQuery, value,
    parenthesizedValue, colorValue, stringValue, integerValue, floatValue, gridValue,
    callExpression, binaryExpression, arguments, className,
    statements, moreQueries, keyframeBlocks, values, moreSelectors, blockItems,
    moreMixed, moreValues, singleParts, doubleParts, moreGridValues, moreArguments,
    nameParts]

/-- The place of a rule in the table. -/
def index (n : Nonterminal) : Nat := n.ctorIdx

end Nonterminal

/-- A token as a part of a rule. -/
instance : Coe Terminal Alternatives := ⟨fun t => [[{ symbol := .token t.index }]]⟩

/-- A rule as a part of a rule. -/
instance : Coe Nonterminal Alternatives := ⟨fun n => [[{ symbol := .rule n.index }]]⟩

/-- Parts one after the other, in every combination of their alternatives. -/
def seq (parts : List Alternatives) : Alternatives :=
  parts.foldl (fun done part => done.flatMap fun a => part.map fun b => a ++ b) [[]]

/-- One of some parts. -/
def choice (parts : List Alternatives) : Alternatives := parts.flatten

/-- A part or nothing. -/
def optional (part : Alternatives) : Alternatives := part ++ [[]]

/-- A part whose nodes get a kind of their own. -/
def shown (name : String) (part : Alternatives) : Alternatives :=
  part.map fun steps => steps.map fun s => { s with shownAs := some (.named name) }

/-- A part, then the repetition of a separator and the part, if there is any. -/
def separated (part : Alternatives) (more : Nonterminal) : Alternatives :=
  seq [part, optional more]

/-- A repetition: two shorter ones, or the part itself. -/
def repetition (n : Nonterminal) (part : Alternatives) : RuleSpec :=
  { kind := none, repetition := true, alternatives := seq [n, n] ++ part }

/-- A rule that shows in the tree. -/
def visible (name : String) (alternatives : Alternatives) : RuleSpec :=
  { kind := some (.named name), alternatives }

/-- A rule that does not show in the tree. -/
def hidden (alternatives : Alternatives) : RuleSpec := { kind := none, alternatives }

/-- A rule with a precedence. -/
def prec (p : Int) (r : RuleSpec) : RuleSpec := { r with precedence := p }

/-- A rule that groups to the left. -/
def left (r : RuleSpec) : RuleSpec := { r with leftAssociative := true }

namespace Nonterminal

open Terminal

/-- What may stand in a block and, but for `postcss_statement`, on its own. -/
def items (inBlock : Bool) : Alternatives :=
  choice [declaration, ruleSet, importStatement, mediaStatement, charsetStatement,
    namespaceStatement, keyframesStatement, supportsStatement,
    if inBlock then postcssStatement else ([] : Alternatives), atRule]

/-- A selector or values, as in the arguments of a pseudo-class. -/
def mixed : Alternatives := choice [selector, values]

/-- A property with its values, up to where a semicolon may follow. -/
def property : Alternatives :=
  seq [shown "property_name" identifier, colon, value, optional moreValues, optional important]

/-- A combinator that may also start a selector. -/
def combined (combinator : Terminal) : Alternatives :=
  seq [optional selector, combinator, selector]

/-- What each rule consists of. -/
def spec : Nonterminal → RuleSpec
  | stylesheet => visible "stylesheet" (optional statements)
  | importStatement => visible "import_statement"
      (seq [atImport, value, optional (separated query moreQueries), semicolon])
  | mediaStatement => visible "media_statement"
      (seq [atMedia, separated query moreQueries, block])
  | charsetStatement => visible "charset_statement" (seq [atCharset, value, semicolon])
  | namespaceStatement => visible "namespace_statement"
      (seq [atNamespace, optional (shown "namespace_name" identifier),
        choice [stringValue, callExpression], semicolon])
  | keyframesStatement => visible "keyframes_statement"
      (seq [choice [atKeyframes, vendorKeyframes], shown "keyframes_name" identifier,
        keyframeBlockList])
  | keyframeBlockList => visible "keyframe_block_list"
      (seq [openBrace, optional keyframeBlocks, closeBrace])
  | keyframeBlock => visible "keyframe_block"
      (seq [choice [fromWord, toWord, integerValue], block])
  | supportsStatement => visible "supports_statement" (seq [atSupports, query, block])
  | postcssStatement => prec (-1) (visible "postcss_statement"
      (seq [atKeyword, optional values, semicolon]))
  | atRule => visible "at_rule"
      (seq [atKeyword, optional (separated query moreQueries), choice [semicolon, block]])
  | ruleSet => visible "rule_set" (seq [selectors, block])
  | selectors => visible "selectors" (separated selector moreSelectors)
  | block => visible "block"
      (seq [openBrace, optional blockItems, optional lastDeclaration, closeBrace])
  | selector => hidden (choice [universalSelector, shown "tag_name" identifier,
      classSelector, ampersand, pseudoClassSelector, pseudoElementSelector, idSelector,
      attributeSelector, stringValue, childSelector, descendantSelector, siblingSelector,
      adjacentSiblingSelector, namespaceSelector])
  | universalSelector => visible "universal_selector" star
  | classSelector => prec 1 (visible "class_selector" (seq [optional selector, dot, className]))
  | pseudoClassSelector => visible "pseudo_class_selector"
      (seq [optional selector, pseudoColon, choice [
        seq [shown "class_name" (choice [hasWord, notWord, isWord, whereWord, hostWord,
          hostContext]), selectorArguments],
        nthChildSelector,
        seq [className, optional pseudoClassArguments],
        shown "class_name" hostWord]])
  | nthChildSelector => hidden (seq [choice [nthChild, nthLastChild], nthChildArguments])
  | pseudoElementSelector => visible "pseudo_element_selector"
      (seq [optional selector, doubleColon, shown "tag_name" identifier,
        optional pseudoElementArguments])
  | idSelector => visible "id_selector"
      (seq [optional selector, hash, shown "id_name" identifier])
  | attributeSelector => visible "attribute_selector"
      (seq [optional selector, attributeOpen,
        shown "attribute_name" (choice [identifier, namespaceSelector]),
        optional (seq [choice [equals, tildeEquals, caretEquals, barEquals, starEquals,
          dollarEquals], value]),
        closeBracket])
  | childSelector => left (visible "child_selector" (combined greater))
  | descendantSelector => left (visible "descendant_selector"
      (seq [selector, descendant, selector]))
  | siblingSelector => left (visible "sibling_selector" (combined tilde))
  | adjacentSiblingSelector => left (visible "adjacent_sibling_selector" (combined plus))
  | namespaceSelector => left (visible "namespace_selector" (combined bar))
  | pseudoClassArguments => visible "arguments"
      (seq [argumentOpen, optional (separated mixed moreMixed), closeParen])
  | selectorArguments => visible "arguments"
      (seq [argumentOpen, optional (separated selector moreSelectors), closeParen])
  | nthChildArguments => prec (-1) (visible "arguments"
      (seq [argumentOpen, choice [evenWord, oddWord, integerValue, nthFormula],
        optional (seq [ofWord, selector]), closeParen]))
  | pseudoElementArguments => visible "arguments"
      (seq [argumentOpen, optional (separated mixed moreMixed), closeParen])
  | declaration => visible "declaration" (seq [property, semicolon])
  | lastDeclaration => prec 1 (visible "declaration" property)
  | query => hidden (choice [shown "keyword_query" identifier, featureQuery, binaryQuery,
      unaryQuery, selectorQuery, parenthesizedQuery])
  | featureQuery => visible "feature_query"
      (seq [openParen, shown "feature_name" identifier, colon, values, closeParen])
  | parenthesizedQuery => visible "parenthesized_query" (seq [openParen, query, closeParen])
  | binaryQuery => left (visible "binary_query"
      (seq [query, choice [andWord, orWord], query]))
  | unaryQuery => prec 1 (visible "unary_query" (seq [choice [notWord, onlyWord], query]))
  | selectorQuery => visible "selector_query"
      (seq [selectorWord, openParen, selector, closeParen])
  | value => prec (-1) (hidden (choice [shown "plain_value" identifier, plainValue, colorValue,
      integerValue, floatValue, stringValue, gridValue, binaryExpression, parenthesizedValue,
      callExpression, important]))
  | parenthesizedValue => visible "parenthesized_value" (seq [openParen, value, closeParen])
  | colorValue => visible "color_value" (seq [hash, hexDigits])
  | stringValue => visible "string_value" (choice [
      seq [singleQuote, optional singleParts, singleQuote],
      seq [doubleQuote, optional doubleParts, doubleQuote]])
  | integerValue => visible "integer_value" (seq [integer, optional unit])
  | floatValue => visible "float_value" (seq [float, optional unit])
  | gridValue => visible "grid_value"
      (seq [openBracket, separated value moreGridValues, closeBracket])
  | callExpression => visible "call_expression"
      (seq [shown "function_name" identifier, arguments])
  | binaryExpression => left (visible "binary_expression"
      (seq [value, choice [plus, minus, star, slash], value]))
  | arguments => visible "arguments"
      (seq [argumentOpen, optional (separated values moreArguments), closeParen])
  | className => visible "class_name" nameParts
  | statements => repetition statements (items false)
  | moreQueries => repetition moreQueries (seq [comma, query])
  | keyframeBlocks => repetition keyframeBlocks keyframeBlock
  | values => repetition values value
  | moreSelectors => repetition moreSelectors (seq [comma, selector])
  | blockItems => repetition blockItems (items true)
  | moreMixed => repetition moreMixed (seq [comma, mixed])
  | moreValues => repetition moreValues (seq [optional comma, value])
  | singleParts => repetition singleParts (choice [singleContent, escape])
  | doubleParts => repetition doubleParts (choice [doubleContent, escape])
  | moreGridValues => repetition moreGridValues (seq [comma, value])
  | moreArguments => repetition moreArguments (seq [choice [comma, semicolon], values])
  | nameParts => repetition nameParts (choice [identifier, escape])

end Nonterminal

/-- The grammar of stylesheets. -/
def grammar : Grammar where
  tokens := (Terminal.all.map Terminal.spec).toArray
  rules := (Nonterminal.all.map Nonterminal.spec).toArray
  extras := [Terminal.blockComment.index, Terminal.lineComment.index]
  blanks := Terminal.blanks

end CssNest.Css
