import PatchLint.Command.Arguments
import PatchLint.Command.Basic
import PatchLint.Command.Run
import PatchLint.Command.Usage
import PatchLint.Config.Basic
import PatchLint.Config.Load
import PatchLint.Config.Validate
import PatchLint.Config.Value
import PatchLint.Config.View
import PatchLint.Diff.Apply
import PatchLint.Diff.Create
import PatchLint.Diff.Document
import PatchLint.Diff.Hunk
import PatchLint.Diff.Patch
import PatchLint.Diff.Script
import PatchLint.Diff.Similarity
import PatchLint.Diff.TextEdit
import PatchLint.Files.FileTree
import PatchLint.Files.Glob
import PatchLint.Files.Path
import PatchLint.Files.Scan
import PatchLint.Fix.All
import PatchLint.Fix.Removal
import PatchLint.Fix.Validated
import PatchLint.Generator.Basic
import PatchLint.Generator.Chat
import PatchLint.Generator.Prompt
import PatchLint.Generator.Reply
import PatchLint.Json.Basic
import PatchLint.Json.Printer
import PatchLint.Json.Reader
import PatchLint.Log.Line
import PatchLint.Log.Trace
import PatchLint.Main
import PatchLint.Number.Binary64
import PatchLint.Number.Numeral
import PatchLint.Proofs.Config.Acceptance
import PatchLint.Proofs.Config.KeySpelling
import PatchLint.Proofs.Config.Printing
import PatchLint.Proofs.Config.Problems
import PatchLint.Proofs.Diff.ClusterHunk
import PatchLint.Proofs.Diff.Clusters
import PatchLint.Proofs.Diff.Document
import PatchLint.Proofs.Diff.EditPlaces
import PatchLint.Proofs.Diff.Edits
import PatchLint.Proofs.Diff.EqualEdits
import PatchLint.Proofs.Diff.FinalNewline
import PatchLint.Proofs.Diff.HunkPlaces
import PatchLint.Proofs.Diff.LinesInFront
import PatchLint.Proofs.Diff.NearestPlace
import PatchLint.Proofs.Diff.PatchRoundtrip
import PatchLint.Proofs.Diff.Placement
import PatchLint.Proofs.Diff.Roundtrip
import PatchLint.Proofs.Diff.Script
import PatchLint.Proofs.Diff.Spellings
import PatchLint.Proofs.Files.DefaultExcludes
import PatchLint.Proofs.Files.DefaultPatterns
import PatchLint.Proofs.Files.DoubleStars
import PatchLint.Proofs.Files.Listing
import PatchLint.Proofs.Files.Lookup
import PatchLint.Proofs.Files.Obstacles
import PatchLint.Proofs.Files.RootOrder
import PatchLint.Proofs.Files.Scanning
import PatchLint.Proofs.Files.Writing
import PatchLint.Proofs.Fix.Fallback
import PatchLint.Proofs.Fix.KeptRun
import PatchLint.Proofs.Fix.LineCuts
import PatchLint.Proofs.Fix.LineOffsets
import PatchLint.Proofs.Fix.LineRemoval
import PatchLint.Proofs.Fix.LostUses
import PatchLint.Proofs.Fix.MissingNames
import PatchLint.Proofs.Fix.Outcomes
import PatchLint.Proofs.Fix.OwnDiffs
import PatchLint.Proofs.Fix.Repeated
import PatchLint.Proofs.Fix.ReportedLine
import PatchLint.Proofs.Fix.Severities
import PatchLint.Proofs.Generator.Answers
import PatchLint.Proofs.Generator.EmbeddedObject
import PatchLint.Proofs.Json.Balanced
import PatchLint.Proofs.Json.Escapes
import PatchLint.Proofs.Json.Extension
import PatchLint.Proofs.Json.Levels
import PatchLint.Proofs.Json.Printed
import PatchLint.Proofs.Json.Readings
import PatchLint.Proofs.Json.Steps
import PatchLint.Proofs.Json.Tokens
import PatchLint.Proofs.Report.Carets
import PatchLint.Proofs.Report.JsonReport
import PatchLint.Proofs.Report.PlaceOrder
import PatchLint.Proofs.Report.ProcessingOrder
import PatchLint.Proofs.Rules.Findings
import PatchLint.Proofs.Rules.ReportedNames
import PatchLint.Proofs.Rules.Spans
import PatchLint.Proofs.Run.Agreement
import PatchLint.Proofs.Run.Interruption
import PatchLint.Proofs.Run.LintReport
import PatchLint.Proofs.Run.Reading
import PatchLint.Proofs.Run.WrittenFiles
import PatchLint.Proofs.Scope.BoundPlaces
import PatchLint.Proofs.Scope.Collections
import PatchLint.Proofs.Scope.Consistency
import PatchLint.Proofs.Scope.Contribution
import PatchLint.Proofs.Scope.MarkedInFront
import PatchLint.Proofs.Scope.Relocation
import PatchLint.Proofs.Scope.StatementUses
import PatchLint.Proofs.Scope.Steps
import PatchLint.Proofs.Scope.Visited
import PatchLint.Proofs.Text.Boundaries
import PatchLint.Proofs.Text.Newlines
import PatchLint.Proofs.Text.Pieces
import PatchLint.Proofs.Tree.FirstFault
import PatchLint.Proofs.Tree.Moved
import PatchLint.Proofs.Tree.Places
import PatchLint.Proofs.Tree.Preorder
import PatchLint.Report.Catalog
import PatchLint.Report.Collection
import PatchLint.Report.Format
import PatchLint.Rules.Analysis
import PatchLint.Rules.Basic
import PatchLint.Rules.Check
import PatchLint.Rules.Diagnostic
import PatchLint.Rules.Globals
import PatchLint.Run.Fix
import PatchLint.Run.Lint
import PatchLint.Run.Source
import PatchLint.Scope.Basic
import PatchLint.Scope.Observe
import PatchLint.Scope.Pattern
import PatchLint.Text.Basic
import PatchLint.Text.Blank
import PatchLint.Text.Case
import PatchLint.Text.Decimal
import PatchLint.Text.Newline
import PatchLint.Text.Printable
import PatchLint.Text.Quoted
import PatchLint.Text.Utf8
import PatchLint.Toml.Fault
import PatchLint.Toml.Reader
import PatchLint.Toml.Scalars
import PatchLint.Toml.Strings
import PatchLint.Toml.Table
import PatchLint.Tree.Bank
import PatchLint.Tree.Location
import PatchLint.Tree.Node
import PatchLint.Tree.Parse
import PatchLint.Tree.Walk
