import Concord.Artifact.Basic
import Concord.Artifact.Load
import Concord.Artifact.Path
import Concord.Artifact.Role
import Concord.Check.Basic
import Concord.Check.Hint
import Concord.Check.Reading
import Concord.Check.Report
import Concord.Command.Arguments
import Concord.Command.Run
import Concord.Config.Basic
import Concord.Config.Default
import Concord.Config.Layer
import Concord.Config.Setting
import Concord.Config.Value
import Concord.Decimal.Notation
import Concord.Decimal.Shortest
import Concord.Diagnostic.Basic
import Concord.Diagnostic.Listing
import Concord.Files.Lookup
import Concord.Files.Text
import Concord.Files.Tree
import Concord.Grammar.Basic
import Concord.Grammar.Document
import Concord.Json.Fault
import Concord.Json.Node
import Concord.Json.Number
import Concord.Json.Printer
import Concord.Json.Text
import Concord.Json.Token
import Concord.Json.Value
import Concord.Listing.Captures
import Concord.Listing.Rules
import Concord.Listing.Scopes
import Concord.Main
import Concord.Proofs.Bounds
import Concord.Proofs.Check.Hints
import Concord.Proofs.Check.Layout
import Concord.Proofs.Check.Selection
import Concord.Proofs.Check.Written
import Concord.Proofs.Command.Check
import Concord.Proofs.Config.Contents
import Concord.Proofs.Config.Editing
import Concord.Proofs.Config.Overrides
import Concord.Proofs.Config.Precedence
import Concord.Proofs.Files.Outcome
import Concord.Proofs.Grammar.Abstract
import Concord.Proofs.Grammar.Agreement
import Concord.Proofs.Grammar.Calls
import Concord.Proofs.Grammar.Document
import Concord.Proofs.Grammar.Names
import Concord.Proofs.Grammar.Reading
import Concord.Proofs.Grammar.Script
import Concord.Proofs.Grammar.Walk
import Concord.Proofs.Json.Assembly
import Concord.Proofs.Json.Lexing
import Concord.Proofs.Json.Lines
import Concord.Proofs.Json.Sorting
import Concord.Proofs.Json.Tree
import Concord.Proofs.Language
import Concord.Proofs.Query.Abstract
import Concord.Proofs.Query.Accessors
import Concord.Proofs.Query.Capturing
import Concord.Proofs.Query.Clauses
import Concord.Proofs.Query.Conservation
import Concord.Proofs.Query.Cutting
import Concord.Proofs.Query.Diagnostics
import Concord.Proofs.Query.Edges
import Concord.Proofs.Query.Form
import Concord.Proofs.Query.Joining
import Concord.Proofs.Query.Layout
import Concord.Proofs.Query.LongestMatch
import Concord.Proofs.Query.Lossless
import Concord.Proofs.Query.Margins
import Concord.Proofs.Query.Moving
import Concord.Proofs.Query.Nesting
import Concord.Proofs.Query.Nodes
import Concord.Proofs.Query.Patterns
import Concord.Proofs.Query.Phrase
import Concord.Proofs.Query.Positions
import Concord.Proofs.Query.Progress
import Concord.Proofs.Query.Quotes
import Concord.Proofs.Query.Quoting
import Concord.Proofs.Query.Ranges
import Concord.Proofs.Query.Reading
import Concord.Proofs.Query.Recognition
import Concord.Proofs.Query.Reporting
import Concord.Proofs.Query.RoundTrip
import Concord.Proofs.Query.Shape
import Concord.Proofs.Query.Showing
import Concord.Proofs.Query.Significance
import Concord.Proofs.Query.Sound
import Concord.Proofs.Query.Unclosed
import Concord.Proofs.Query.Weaving
import Concord.Proofs.Query.Within
import Concord.Proofs.Run
import Concord.Proofs.Scope.Declared
import Concord.Proofs.Scope.Path
import Concord.Proofs.Scope.Shape
import Concord.Proofs.Scope.Sites
import Concord.Proofs.Scope.Under
import Concord.Proofs.Script.Alike
import Concord.Proofs.Script.Cutting
import Concord.Proofs.Script.Declarations
import Concord.Proofs.Script.Exchange
import Concord.Proofs.Script.Indexing
import Concord.Proofs.Script.Nesting
import Concord.Proofs.Script.Opaque
import Concord.Proofs.Script.Passing
import Concord.Proofs.Script.Places
import Concord.Proofs.Script.Positions
import Concord.Proofs.Script.QuotedKey
import Concord.Proofs.Script.Quoting
import Concord.Proofs.Script.Redeclared
import Concord.Proofs.Script.RegexLiteral
import Concord.Proofs.Script.Roles
import Concord.Proofs.Script.Spacing
import Concord.Proofs.Script.Unbalanced
import Concord.Proofs.Spelling
import Concord.Proofs.Text.Colour
import Concord.Proofs.Text.EditDistance
import Concord.Proofs.Text.Escaped
import Concord.Proofs.Text.Slice
import Concord.Proofs.Text.Suggestion
import Concord.Proofs.Toml.Keys
import Concord.Query.Document
import Concord.Query.Dump
import Concord.Query.Escape
import Concord.Query.Expr
import Concord.Query.Lexing
import Concord.Query.Pattern
import Concord.Query.Presence
import Concord.Query.Production
import Concord.Query.Report
import Concord.Query.Token
import Concord.Query.Tree
import Concord.Regex.Basic
import Concord.Regex.Error
import Concord.Regex.Meaning
import Concord.Regex.Property
import Concord.Regex.Reader
import Concord.Regex.Term
import Concord.Scope.Basic
import Concord.Scope.Document
import Concord.Script.Lexing
import Concord.Script.Scan
import Concord.Script.Token
import Concord.Text.EditDistance
import Concord.Text.Line
import Concord.Text.Literal
import Concord.Text.Quoted
import Concord.Text.Search
import Concord.Text.Span
import Concord.Text.Style
import Concord.Toml.Document
import Concord.Toml.Number
import Concord.Toml.Text
import Concord.Toml.Value
import Concord.Unicode.CaseFold
import Concord.Unicode.Category
import Concord.Unicode.Category.Letter
import Concord.Unicode.Category.Mark
import Concord.Unicode.Category.Number
import Concord.Unicode.Category.Other
import Concord.Unicode.Category.Punctuation
import Concord.Unicode.Category.Symbol
import Concord.Unicode.Class
import Concord.Unicode.RangeTable
