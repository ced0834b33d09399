import ChartValues.Block.Basic
import ChartValues.Block.Scan
import ChartValues.Cache
import ChartValues.Command.Process
import ChartValues.Command.Script
import ChartValues.Command.Shell
import ChartValues.Command.Utility
import ChartValues.CommandLine.Encode
import ChartValues.CommandLine.Invocation
import ChartValues.CommandLine.Options
import ChartValues.CommandLine.Run
import ChartValues.Completion
import ChartValues.Config
import ChartValues.CursorPath
import ChartValues.Decimal.Binary64
import ChartValues.Decimal.Shortest
import ChartValues.Document.Basic
import ChartValues.Document.Line
import ChartValues.Fetch.Basic
import ChartValues.Fetch.Fixture
import ChartValues.Fetch.Helm
import ChartValues.File.Glob
import ChartValues.File.Path
import ChartValues.File.Tree
import ChartValues.Json
import ChartValues.Log.Event
import ChartValues.Log.Filter
import ChartValues.Log.Format
import ChartValues.Main
import ChartValues.Markdown.Block
import ChartValues.Markdown.Entity
import ChartValues.Markdown.Html
import ChartValues.Markdown.Inline
import ChartValues.Markdown.Line
import ChartValues.Markdown.Link
import ChartValues.Markdown.Terminal
import ChartValues.Notice.Basic
import ChartValues.Notice.Diagnostic
import ChartValues.Report
import ChartValues.Suite.Basic
import ChartValues.Suite.Case
import ChartValues.Suite.Run
import ChartValues.Text.Blank
import ChartValues.Text.Printable
import ChartValues.Text.Punctuation
import ChartValues.Text.Quoted
import ChartValues.Text.Ranges
import ChartValues.Text.Utf8
import ChartValues.Text.Width
import ChartValues.Text.Word
import ChartValues.Toml.Reader
import ChartValues.Toml.Scalar
import ChartValues.Toml.Table
import ChartValues.Toml.Value
import ChartValues.Tree.Basic
import ChartValues.Tree.Candidate
import ChartValues.Tree.Entry
import ChartValues.Tree.OfYaml
import ChartValues.Yaml.Cursor
import ChartValues.Yaml.Lexer
import ChartValues.Yaml.Node
import ChartValues.Yaml.Scalar
import ChartValues.Yaml.ScalarText
import ChartValues.Yaml.Token
import ChartValues.Yaml.Value
import ChartValues.Proofs.Text.Run
import ChartValues.Proofs.Tree.Distinct
import ChartValues.Proofs.Tree.Flatten
import ChartValues.Proofs.Tree.Level
import ChartValues.Proofs.Block.Scan
import ChartValues.Proofs.Block.Span
import ChartValues.Proofs.Document.Key
import ChartValues.Proofs.Path.Enclosing
import ChartValues.Proofs.Fetch.Provider
import ChartValues.Proofs.Fetch.ChartFiles
import ChartValues.Proofs.Cache.Step
import ChartValues.Proofs.Cache.History
import ChartValues.Proofs.Completion.Items
import ChartValues.Proofs.Completion.Request
import ChartValues.Proofs.Completion.Transparency
import ChartValues.Proofs.Completion.Delivered
import ChartValues.Proofs.Document.Text
import ChartValues.Proofs.Document.KeyLine
import ChartValues.Proofs.Document.Recognised
import ChartValues.Proofs.Document.Reference
import ChartValues.Proofs.Block.Locate
import ChartValues.Proofs.Document.Edit
import ChartValues.Proofs.Completion.Descent
import ChartValues.Proofs.Completion.Outcome
import ChartValues.Proofs.Document.TopKey
import ChartValues.Proofs.Path.Rendered
import ChartValues.Proofs.Tree.Rendered
import ChartValues.Proofs.Yaml.ScalarText
import ChartValues.Proofs.Yaml.Written
import ChartValues.Proofs.Yaml.Steps
import ChartValues.Proofs.Yaml.Flow
import ChartValues.Proofs.Yaml.Block
import ChartValues.Proofs.Yaml.Load
import ChartValues.Proofs.Decimal.Nearest
import ChartValues.Proofs.Decimal.Shortest
import ChartValues.Proofs.Yaml.Number
import ChartValues.Proofs.Yaml.Loaded
import ChartValues.Proofs.Yaml.Json
import ChartValues.Proofs.Tree.ReadBack
import ChartValues.Proofs.Completion.Underline
import ChartValues.Proofs.Tree.PostOrder
import ChartValues.Proofs.CommandLine.Agreement
import ChartValues.Proofs.File.Names
import ChartValues.Proofs.File.FileName
import ChartValues.Proofs.File.Glob
import ChartValues.Proofs.File.Joined
import ChartValues.Proofs.Suite.Categories
import ChartValues.Proofs.Suite.Selection
import ChartValues.Proofs.Suite.Verdict
import ChartValues.Proofs.Document.Parts
import ChartValues.Proofs.Path.Column
import ChartValues.Proofs.Path.Dependence
import ChartValues.Proofs.Completion.Replaced
import ChartValues.Proofs.Tree.SortText
import ChartValues.Proofs.Completion.HostOrder
import ChartValues.Proofs.Block.StartLines
import ChartValues.Proofs.Block.Commits
import ChartValues.Proofs.Document.Pieces
import ChartValues.Proofs.Tree.Selected
import ChartValues.Proofs.Tree.Converted
import ChartValues.Proofs.Markdown.Emphasis
import ChartValues.Proofs.Markdown.Reading
import ChartValues.Proofs.Markdown.Heading
import ChartValues.Proofs.Markdown.Builder
import ChartValues.Proofs.Markdown.Fence
import ChartValues.Proofs.Markdown.Document
import ChartValues.Proofs.Completion.Shown
import ChartValues.Proofs.Completion.Applicability
