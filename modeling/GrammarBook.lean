import GrammarBook.Analysis.Analyzer
import GrammarBook.Analysis.Attribute
import GrammarBook.Analysis.Basic
import GrammarBook.Analysis.Cycle
import GrammarBook.Analysis.Delimiter
import GrammarBook.Analysis.Fragment
import GrammarBook.Analysis.Regex
import GrammarBook.Analysis.Resolution
import GrammarBook.Command.Documents
import GrammarBook.Command.Flag
import GrammarBook.Command.Format
import GrammarBook.Command.Inspect
import GrammarBook.Command.Line
import GrammarBook.Command.Run
import GrammarBook.Command.Style
import GrammarBook.Command.Trouble
import GrammarBook.Document.Basic
import GrammarBook.Document.Equality
import GrammarBook.Document.Plurality
import GrammarBook.Excerpt
import GrammarBook.Fault
import GrammarBook.Files.Host
import GrammarBook.Files.Path
import GrammarBook.Files.World
import GrammarBook.Inflection
import GrammarBook.Json.Basic
import GrammarBook.Layout
import GrammarBook.Main
import GrammarBook.Names.NameSet
import GrammarBook.Names.NameTable
import GrammarBook.Proofs.Grammar.Form
import GrammarBook.Proofs.Grammar.Lookahead
import GrammarBook.Proofs.Reading.Guided
import GrammarBook.Proofs.Reading.Soundness
import GrammarBook.Proofs.Token.Exactness
import GrammarBook.Proofs.Token.Lexeme
import GrammarBook.Proofs.Token.Placement
import GrammarBook.Proofs.Token.Relexing
import GrammarBook.Reading.Cursor
import GrammarBook.Reading.Parser
import GrammarBook.Reading.Production
import GrammarBook.Reading.Productions
import GrammarBook.Release
import GrammarBook.RoundTrip
import GrammarBook.Settings.Basic
import GrammarBook.Settings.Discovery
import GrammarBook.Settings.Format
import GrammarBook.Settings.Json
import GrammarBook.Settings.Toml.Quoted
import GrammarBook.Settings.Toml.Statement
import GrammarBook.Settings.Toml.Table
import GrammarBook.Settings.Toml.Word
import GrammarBook.Settings.Value
import GrammarBook.Settings.Yaml.Cursor
import GrammarBook.Settings.Yaml.Document
import GrammarBook.Settings.Yaml.Node
import GrammarBook.Settings.Yaml.Reading
import GrammarBook.Settings.Yaml.Scalar
import GrammarBook.Settings.Yaml.Tag
import GrammarBook.Settings.Yaml.Token
import GrammarBook.Text.Casing
import GrammarBook.Text.Count
import GrammarBook.Text.Hexadecimal
import GrammarBook.Text.Lines
import GrammarBook.Text.Padding
import GrammarBook.Text.Printable
import GrammarBook.Text.Quoted
import GrammarBook.Token.Basic
import GrammarBook.Token.Json
import GrammarBook.Token.Kind
import GrammarBook.Token.Munch
import GrammarBook.Token.Scan
import GrammarBook.Token.Spelling
import GrammarBook.Token.Value
import GrammarBook.Validator
import GrammarBook.Walk.Event
import GrammarBook.Walk.Follower
import GrammarBook.Walk.Visitor
import GrammarBook.Proofs.Walk.Events
import GrammarBook.Proofs.Reading.Completeness
import GrammarBook.Proofs.Reading.Acceptance
import GrammarBook.Proofs.Layout.Spacing
import GrammarBook.Proofs.Layout.Survival
import GrammarBook.Proofs.Layout.Stability
import GrammarBook.Proofs.Layout.RoundTrip
import GrammarBook.Proofs.Regex.Expr
import GrammarBook.Proofs.Regex.Reading
import GrammarBook.Proofs.Regex.Pieces
import GrammarBook.Proofs.Regex.Quantifier
import GrammarBook.Proofs.Analysis.Step
import GrammarBook.Proofs.Analysis.Fragments
import GrammarBook.Proofs.Analysis.Rules
import GrammarBook.Proofs.Analysis.Compiled
import GrammarBook.Proofs.Validation.Parts
import GrammarBook.Proofs.Validation.Exact
import GrammarBook.Proofs.Analysis.Reach
import GrammarBook.Proofs.Analysis.Resolved
import GrammarBook.Proofs.Analysis.Denotation
import GrammarBook.Proofs.Analysis.Resolution
import GrammarBook.Proofs.Analysis.Faithful
import GrammarBook.Proofs.Analysis.Attributes
import GrammarBook.Proofs.Layout.Writable
import GrammarBook.Proofs.Layout.Validated
import GrammarBook.Proofs.Reading.Rejection
import GrammarBook.Proofs.Analysis.Naming
import GrammarBook.Proofs.Analysis.Circle
import GrammarBook.Proofs.Analysis.Closure
import GrammarBook.Proofs.Analysis.Completion
import GrammarBook.Proofs.Analysis.Plurality
import GrammarBook.Proofs.Walk.Leaves
import GrammarBook.Proofs.Command.InPlace
import GrammarBook.Proofs.Walk.Nested
import GrammarBook.Proofs.Analysis.Recorded
import GrammarBook.Proofs.Analysis.Delimiter
import GrammarBook.Proofs.Regex.Grammar
import GrammarBook.Proofs.Analysis.WellFormed
import GrammarBook.Proofs.Token.Choice
import GrammarBook.Proofs.Token.Arrow
import GrammarBook.Proofs.Walk.Reuse
import GrammarBook.Proofs.Validation.Spelling
import GrammarBook.Proofs.Layout.Difference
import GrammarBook.Proofs.Reading.Course
import GrammarBook.Proofs.Token.Joining
import GrammarBook.Proofs.Layout.Reordering
