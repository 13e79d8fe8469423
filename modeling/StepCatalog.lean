import StepCatalog.Body.Compile
import StepCatalog.Body.Display
import StepCatalog.Body.Expansion
import StepCatalog.Body.Parts
import StepCatalog.Body.Rules
import StepCatalog.Body.Source
import StepCatalog.Catalog.Configuration
import StepCatalog.Catalog.Outcome
import StepCatalog.Catalog.Registry
import StepCatalog.Catalog.Step
import StepCatalog.Catalog.Usage
import StepCatalog.CommandLine.Log
import StepCatalog.CommandLine.Options
import StepCatalog.CommandLine.Run
import StepCatalog.Definition.Rule
import StepCatalog.Docstring.Clean
import StepCatalog.Docstring.Expression
import StepCatalog.Docstring.Literal
import StepCatalog.Docstring.Reading
import StepCatalog.Docstring.Statement
import StepCatalog.Docstring.Token
import StepCatalog.Editor.Diagnostic
import StepCatalog.Editor.InsertText
import StepCatalog.Editor.Query
import StepCatalog.Entries
import StepCatalog.Gherkin.Context
import StepCatalog.Gherkin.Keyword
import StepCatalog.Gherkin.Languages
import StepCatalog.Gherkin.Outline
import StepCatalog.Gherkin.StepLine
import StepCatalog.Json.Reader
import StepCatalog.Json.Value
import StepCatalog.Json.Writer
import StepCatalog.Main
import StepCatalog.Proofs.Body.Choices
import StepCatalog.Proofs.Body.Cutting
import StepCatalog.Proofs.Body.Escaped
import StepCatalog.Proofs.Body.Expanding
import StepCatalog.Proofs.Body.Harmless
import StepCatalog.Proofs.Body.Joined
import StepCatalog.Proofs.Body.Language
import StepCatalog.Proofs.Body.Leading
import StepCatalog.Proofs.Body.Parking
import StepCatalog.Proofs.Body.Parts
import StepCatalog.Proofs.Body.Phrase
import StepCatalog.Proofs.Body.PureText
import StepCatalog.Proofs.Body.Slashes
import StepCatalog.Proofs.Body.Token
import StepCatalog.Proofs.Body.Traced
import StepCatalog.Proofs.Catalog.Counting
import StepCatalog.Proofs.Catalog.Discovery
import StepCatalog.Proofs.Catalog.Failure
import StepCatalog.Proofs.Catalog.History
import StepCatalog.Proofs.Catalog.Merging
import StepCatalog.Proofs.Catalog.Numbering
import StepCatalog.Proofs.Catalog.Origin
import StepCatalog.Proofs.Catalog.Outcome
import StepCatalog.Proofs.Catalog.Robust
import StepCatalog.Proofs.Catalog.Scan
import StepCatalog.Proofs.Definition.Keyword
import StepCatalog.Proofs.Definition.Written
import StepCatalog.Proofs.Editor.Agreement
import StepCatalog.Proofs.Editor.Completing
import StepCatalog.Proofs.Editor.Covering
import StepCatalog.Proofs.Editor.Insertion
import StepCatalog.Proofs.Editor.Ranking
import StepCatalog.Proofs.Editor.Remaining
import StepCatalog.Proofs.Entries
import StepCatalog.Proofs.Gherkin.Context
import StepCatalog.Proofs.Gherkin.Filling
import StepCatalog.Proofs.Gherkin.LinePattern
import StepCatalog.Proofs.Gherkin.StepLines
import StepCatalog.Proofs.Gherkin.Tables
import StepCatalog.Proofs.Gherkin.Words
import StepCatalog.Proofs.Regex.Beyond
import StepCatalog.Proofs.Regex.Meaning
import StepCatalog.Proofs.Regex.Progress
import StepCatalog.Proofs.Regex.Reading
import StepCatalog.Proofs.Regex.Refusal
import StepCatalog.Proofs.Regex.Slash
import StepCatalog.Proofs.Settings.Acceptance
import StepCatalog.Proofs.Settings.Order
import StepCatalog.Proofs.Source.Clearing
import StepCatalog.Proofs.Source.Documenting
import StepCatalog.Proofs.Text.Encoding
import StepCatalog.Proofs.Text.Parts
import StepCatalog.Proofs.Text.Trim
import StepCatalog.Proofs.Traversal
import StepCatalog.Regex.Node
import StepCatalog.Regex.Reader
import StepCatalog.Regex.Search
import StepCatalog.Settings
import StepCatalog.Source.Comment
import StepCatalog.Stack
import StepCatalog.Text.Basic
import StepCatalog.Text.Blank
import StepCatalog.Text.Case
import StepCatalog.Text.Digest
import StepCatalog.Text.Digit
import StepCatalog.Text.Identifier
import StepCatalog.Text.Lines
import StepCatalog.Text.Percent
import StepCatalog.Text.Pieces
import StepCatalog.Text.Ranges
import StepCatalog.Text.Utf8
import StepCatalog.Text.Word
import StepCatalog.Workspace.Glob
import StepCatalog.Workspace.Path
import StepCatalog.Workspace.Reach
import StepCatalog.Workspace.Tree
import StepCatalog.Workspace.Wildcard
import StepCatalog.Proofs.Json.Same
