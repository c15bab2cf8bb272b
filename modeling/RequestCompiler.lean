import RequestCompiler.Text.Lower
import RequestCompiler.Text.Blank
import RequestCompiler.Text.Utf8
import RequestCompiler.Binary64.Decimal
import RequestCompiler.Binary64.Numeral
import RequestCompiler.Sha256
import RequestCompiler.Json.Reader
import RequestCompiler.Json.Printer
import RequestCompiler.Vocabulary
import RequestCompiler.Directive.Parser
import RequestCompiler.Registry.Validation
import RequestCompiler.Compile.Report
import RequestCompiler.Compile.Check
import RequestCompiler.Codex
import RequestCompiler.Log.Ulid
import RequestCompiler.Log.Reader
import RequestCompiler.Log.Store
import RequestCompiler.Yaml.Token.Lexer
import RequestCompiler.Yaml.Tree.Builder
import RequestCompiler.Yaml.Scalar.Block
import RequestCompiler.Yaml.Node.Reader
import RequestCompiler.Failure
import RequestCompiler.Listing
import RequestCompiler.Style
import RequestCompiler.Settings
import RequestCompiler.Holder
import RequestCompiler.Log.Service
import RequestCompiler.Shell.Session
import RequestCompiler.CommandLine.Request
import RequestCompiler.CommandLine.Arguments
import RequestCompiler.Shell.Terminal
import RequestCompiler.CommandLine.Run
import RequestCompiler.Main
import RequestCompiler.Proofs.Except
import RequestCompiler.Proofs.Text.Words
import RequestCompiler.Proofs.Text.Lines
import RequestCompiler.Proofs.Text.Pieces
import RequestCompiler.Proofs.Text.Utf8
import RequestCompiler.Proofs.Text.Lower
import RequestCompiler.Proofs.Delta.Token
import RequestCompiler.Proofs.Delta.Order
import RequestCompiler.Proofs.Directive.Line
import RequestCompiler.Proofs.Program.Grammar
import RequestCompiler.Proofs.Program.RoundTrip
import RequestCompiler.Proofs.Confidence
import RequestCompiler.Proofs.Json.Tree
import RequestCompiler.Proofs.Json.Quoted
import RequestCompiler.Proofs.Json.Framing
import RequestCompiler.Proofs.Json.Canonical
import RequestCompiler.Proofs.Json.Reading
import RequestCompiler.Proofs.Json.RoundTrip
import RequestCompiler.Proofs.Json.Torn
import RequestCompiler.Proofs.Registry.Expansion
import RequestCompiler.Proofs.Registry.Fields
import RequestCompiler.Proofs.Registry.Entry
import RequestCompiler.Proofs.Registry.Entries
import RequestCompiler.Proofs.Registry.WellFormed
import RequestCompiler.Proofs.Registry.Accepted
import RequestCompiler.Proofs.Registry.Gate
import RequestCompiler.Proofs.Registry.Passage
import RequestCompiler.Proofs.Registry.Identity
import RequestCompiler.Proofs.Matching.Selection
import RequestCompiler.Proofs.Matching.Run
import RequestCompiler.Proofs.Compile.Answer
import RequestCompiler.Proofs.Compile.ClosedWorld
import RequestCompiler.Proofs.Compile.Consistency
import RequestCompiler.Proofs.Compile.Reproduction
import RequestCompiler.Proofs.Log.FirstById
import RequestCompiler.Proofs.Log.Line
import RequestCompiler.Proofs.Log.Reading
import RequestCompiler.Proofs.Files.Path
import RequestCompiler.Proofs.Files.Tree
import RequestCompiler.Proofs.Files.World
import RequestCompiler.Proofs.Log.File
import RequestCompiler.Proofs.Log.Run
import RequestCompiler.Proofs.Holder
import RequestCompiler.Proofs.Shell.Command
import RequestCompiler.Proofs.Shell.Session
import RequestCompiler.Proofs.Compile.Violation
import RequestCompiler.Proofs.Compile.CanonicalForm
import RequestCompiler.Proofs.Log.Trace
import RequestCompiler.Proofs.Json.Reordered
import RequestCompiler.Proofs.Registry.Restated
import RequestCompiler.Proofs.Json.Changed
import RequestCompiler.Proofs.Registry.Normalization
import RequestCompiler.Proofs.Log.Order
import RequestCompiler.Proofs.Log.Merged
import RequestCompiler.Proofs.Text.Occurrence
import RequestCompiler.Proofs.Matching.Score
import RequestCompiler.Proofs.Matching.Ranking
import RequestCompiler.Proofs.Matching.Contenders
import RequestCompiler.Proofs.Compile.Contest
import RequestCompiler.Proofs.Text.Context
import RequestCompiler.Proofs.Text.Sigma
import RequestCompiler.Proofs.Matching.Keyword
import RequestCompiler.Proofs.Compile.Evidence
import RequestCompiler.Proofs.Compile.Options
import RequestCompiler.Proofs.Program.DeltaOrder
import RequestCompiler.Proofs.Program.Errors
import RequestCompiler.Proofs.Program.FirstDirective
import RequestCompiler.Proofs.Registry.Reports
import RequestCompiler.Proofs.Log.Growth
import RequestCompiler.Proofs.Log.Account
import RequestCompiler.Proofs.Lookup
import RequestCompiler.Proofs.Log.Ulid
import RequestCompiler.Proofs.Log.Memory
import RequestCompiler.Proofs.Log.Keepers
import RequestCompiler.Proofs.Text.Joined
import RequestCompiler.Proofs.Codex.Search
import RequestCompiler.Proofs.Json.KeyOrder
import RequestCompiler.Proofs.Table
import RequestCompiler.Proofs.Codex.Tally
import RequestCompiler.Proofs.Codex.Statistics
import RequestCompiler.Proofs.Codex.Lookup
import RequestCompiler.Proofs.Codex.Modules
import RequestCompiler.Proofs.Delta.Codec
import RequestCompiler.Proofs.Codex.Truncation
import RequestCompiler.Proofs.Binary64.Quotient
import RequestCompiler.Proofs.Binary64.Numeral
import RequestCompiler.Proofs.Binary64.Decimal
import RequestCompiler.Proofs.Json.Content
