import CssNest.CommandLine
import CssNest.Convert
import CssNest.Dialect
import CssNest.Distinct
import CssNest.Failure
import CssNest.File
import CssNest.Grammar.Automaton
import CssNest.Grammar.Basic
import CssNest.Grammar.Branch
import CssNest.Grammar.Conflict
import CssNest.Grammar.Css
import CssNest.Grammar.Item
import CssNest.Grammar.Lexicon
import CssNest.Grammar.Merge
import CssNest.Grammar.Pattern
import CssNest.Grammar.Table
import CssNest.Grammar.TokenSet
import CssNest.Layout
import CssNest.Log
import CssNest.Main
import CssNest.OrderedMap
import CssNest.Rule
import CssNest.Selector
import CssNest.Settings.Basic
import CssNest.Settings.Json
import CssNest.Sheet.Basic
import CssNest.Sheet.Block
import CssNest.Sheet.Render
import CssNest.Stylesheet
import CssNest.Syntax.Lexer
import CssNest.Syntax.Node
import CssNest.Syntax.Parser
import CssNest.Syntax.Part
import CssNest.Syntax.Recover
import CssNest.Syntax.Reduce
import CssNest.Syntax.Stack
import CssNest.Syntax.Tree
import CssNest.Text.Blank
import CssNest.Text.Collapse
import CssNest.Text.Quote
import CssNest.Text.Quoted
import CssNest.Text.Unseen
import CssNest.Text.Width
import CssNest.Tidy
import CssNest.Tidy.AtRule
import CssNest.Tidy.Condition
import CssNest.Tidy.Declaration
import CssNest.Tidy.Doc
import CssNest.Tidy.Lexeme
import CssNest.Tidy.Reader
import CssNest.Tidy.Selector
import CssNest.Tidy.Statement
import CssNest.Tidy.Value
import CssNest.Token
import CssNest.Token.Emission
import CssNest.Variables.Extract
import CssNest.Variables.Table
import CssNest.Proofs.Block
import CssNest.Proofs.Sheet
import CssNest.Proofs.Variables
import CssNest.Proofs.Alike
import CssNest.Proofs.Inlining
import CssNest.Proofs.TokenStream
import CssNest.Proofs.SelectorGrammar
import CssNest.Proofs.Extraction
import CssNest.Proofs.Replay
import CssNest.Proofs.Separators
import CssNest.Proofs.Spelling
import CssNest.Proofs.Naming
import CssNest.Proofs.Lines
import CssNest.Proofs.Reading
import CssNest.Proofs.Characters
import CssNest.Proofs.Balance
import CssNest.Proofs.Located
import CssNest.Proofs.Comments
import CssNest.Proofs.MediaQueries
import CssNest.Proofs.ParentMarkers
import CssNest.Proofs.Usage
import CssNest.Proofs.Template
import CssNest.Proofs.Dialects
import CssNest.Proofs.Blanks
import CssNest.Proofs.Restoring
import CssNest.Proofs.ChildCombinators
import CssNest.Proofs.Brackets
import CssNest.Proofs.Quotations
import CssNest.Proofs.Entries
import CssNest.Proofs.Calls
import CssNest.Proofs.SiblingCombinators
import CssNest.Proofs.PseudoClasses
import CssNest.Proofs.ChildSpellings
import CssNest.Proofs.Conservation
import CssNest.Proofs.Arguments
