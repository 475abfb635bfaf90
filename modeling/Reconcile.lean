import Reconcile.Address
import Reconcile.Command.Hours
import Reconcile.Command.Line
import Reconcile.Command.Output
import Reconcile.Command.Report
import Reconcile.Command.Response
import Reconcile.Command.Run
import Reconcile.Comparison
import Reconcile.Document.Csv
import Reconcile.Document.Format
import Reconcile.Document.Json.Printer
import Reconcile.Document.Json.Reader
import Reconcile.Document.Lines
import Reconcile.Document.Plain
import Reconcile.Document.Reader
import Reconcile.Document.Step
import Reconcile.Document.Value
import Reconcile.Document.Yaml.Composition
import Reconcile.Document.Yaml.Cursor
import Reconcile.Document.Yaml.Lexer
import Reconcile.Document.Yaml.Node
import Reconcile.Document.Yaml.Reader
import Reconcile.Document.Yaml.Scalar
import Reconcile.Document.Yaml.Schema
import Reconcile.Document.Yaml.Tag
import Reconcile.Document.Yaml.Token
import Reconcile.Document.Yaml.Tree
import Reconcile.Engine.Check
import Reconcile.Engine.Progress
import Reconcile.Engine.Run
import Reconcile.Extraction
import Reconcile.Fault
import Reconcile.Files
import Reconcile.Files.Tree
import Reconcile.Hours.Clock
import Reconcile.Hours.Day
import Reconcile.Hours.Error
import Reconcile.Hours.Schedule
import Reconcile.Main
import Reconcile.Mapping.Basic
import Reconcile.Mapping.Decode
import Reconcile.Mapping.Source
import Reconcile.Number.Binary64
import Reconcile.Number.Notation
import Reconcile.Number.Power
import Reconcile.Number.Shortest
import Reconcile.Query.Basic
import Reconcile.Query.Error
import Reconcile.Query.Eval
import Reconcile.Query.Parser
import Reconcile.Text.Blank
import Reconcile.Text.Digits
import Reconcile.Text.Hidden
import Reconcile.Text.Quoted
import Reconcile.Text.Search
import Reconcile.Text.Utf8
import Reconcile.Proofs.Conclusion
import Reconcile.Proofs.Agreement
import Reconcile.Proofs.Policies
import Reconcile.Proofs.Channel
import Reconcile.Proofs.Accounting
import Reconcile.Proofs.Abort
import Reconcile.Proofs.Order
import Reconcile.Proofs.Text.Splitting
import Reconcile.Proofs.Json.Number
import Reconcile.Proofs.Json.Bare
import Reconcile.Proofs.Query.Subtree
import Reconcile.Proofs.Query.Matches
import Reconcile.Proofs.Query.Reading
import Reconcile.Proofs.Query.RoundTrip
import Reconcile.Proofs.Query.Taking
import Reconcile.Proofs.Query.Composition
import Reconcile.Proofs.Query.Mismatch
import Reconcile.Proofs.Query.Condition
import Reconcile.Proofs.Query.Compound
import Reconcile.Proofs.Address
import Reconcile.Proofs.Hours.Clock
import Reconcile.Proofs.Hours.NormalForm
import Reconcile.Proofs.Hours.Written
import Reconcile.Proofs.Hours.Expansion
import Reconcile.Proofs.Json.Strings
import Reconcile.Proofs.Json.Shape
import Reconcile.Proofs.Json.Unique
import Reconcile.Proofs.Json.ReadBack
import Reconcile.Proofs.Hours.Agreement
import Reconcile.Proofs.Command.Run
import Reconcile.Proofs.Json.OneLine
import Reconcile.Proofs.Command.Streams
import Reconcile.Proofs.Document.Table
import Reconcile.Proofs.Document.Csv
import Reconcile.Proofs.Document.Lines
import Reconcile.Proofs.Document.Formats
import Reconcile.Proofs.Mapping.Reading
import Reconcile.Proofs.Mapping.Canonical
import Reconcile.Proofs.Mapping.Written
import Reconcile.Proofs.Sources
import Reconcile.Proofs.Extraction
import Reconcile.Proofs.Transforms
import Reconcile.Proofs.Comparison.FirstFault
import Reconcile.Proofs.Comparison.Symmetry
import Reconcile.Proofs.Transform.Chain
import Reconcile.Proofs.Text.Removal
import Reconcile.Proofs.Transform.Prefix
import Reconcile.Proofs.Comparison.Blanks
import Reconcile.Proofs.Query.Partition
import Reconcile.Proofs.Number.Nearest
import Reconcile.Proofs.Query.WholeNumbers
import Reconcile.Proofs.Number.Shortest
import Reconcile.Proofs.Comparison.WholeFloats
import Reconcile.Proofs.Query.Positions
import Reconcile.Proofs.Hours.Segments
import Reconcile.Proofs.Query.Cursor
import Reconcile.Proofs.Query.Places
import Reconcile.Proofs.Query.Tokens
import Reconcile.Proofs.Query.Safety
