import Graft.Closure.Error
import Graft.Closure.Materializer
import Graft.Closure.Report
import Graft.Closure.Run
import Graft.CommandLine.Arguments
import Graft.CommandLine.Request
import Graft.CommandLine.Run
import Graft.CrossReference
import Graft.Definition
import Graft.DefinitionIndex
import Graft.Diagnostics.Event
import Graft.Diagnostics.Grammar
import Graft.Diagnostics.Recognizer
import Graft.Diagnostics.Report
import Graft.Digest.Sha256
import Graft.Distinct
import Graft.Extraction
import Graft.Fault
import Graft.Job.Basic
import Graft.Job.Close
import Graft.Job.Index
import Graft.Job.Resolve
import Graft.Json
import Graft.Listing
import Graft.Main
import Graft.Manifest
import Graft.NameCleanup
import Graft.Notice
import Graft.Path
import Graft.Pattern.Basic
import Graft.Pattern.Match
import Graft.Pattern.Parse
import Graft.Process.Command
import Graft.Process.Environment
import Graft.Proofs.Closure.Materialize
import Graft.Proofs.Path.Locate
import Graft.Proofs.Path.Parent
import Graft.Proofs.Tree.Files
import Graft.Register
import Graft.Resolve.Error
import Graft.Resolve.Report
import Graft.Resolve.SymbolTable
import Graft.Settings
import Graft.Settings.Reader
import Graft.SourceFile
import Graft.SourcePath
import Graft.Symbol
import Graft.Text.Affix
import Graft.Text.Blank
import Graft.Text.CaseFold
import Graft.Text.Digit
import Graft.Text.Line
import Graft.Text.Printable
import Graft.Text.Quoted
import Graft.Text.Radix
import Graft.Text.Utf8
import Graft.Text.WordChar
import Graft.Toml.Document
import Graft.Toml.Moment
import Graft.Toml.Quotation
import Graft.Toml.Scalar
import Graft.Toml.Value
import Graft.Tool
import Graft.Tree
import Graft.Tree.Glob
import Graft.Tree.Walk
import Graft.Proofs.Closure.HeaderPaths
import Graft.Proofs.Closure.Confinement
import Graft.Proofs.Closure.Awaits
import Graft.Proofs.Closure.Positions
import Graft.Proofs.Closure.Loop
import Graft.Proofs.Closure.Pass
import Graft.Proofs.Closure.Answers
import Graft.Proofs.Closure.Handled
import Graft.Proofs.Closure.Overlay
import Graft.Proofs.Closure.Verdict
import Graft.Proofs.Closure.Bound
import Graft.Proofs.Closure.Records
import Graft.Proofs.Manifest
import Graft.Proofs.Resolve.Partition
import Graft.Proofs.DefinitionIndex
import Graft.Proofs.DefinitionIndex.Views
import Graft.Proofs.Listing
import Graft.Proofs.Tree.Spelling
import Graft.Proofs.Closure.Targets
import Graft.Proofs.Closure.Protection
import Graft.Proofs.Resolve.ReadBack
import Graft.Proofs.CrossReference
import Graft.Proofs.Diagnostics.Printed
import Graft.Proofs.Diagnostics.Lines
import Graft.Proofs.Diagnostics.Layout
import Graft.Proofs.Tree.Growth
import Graft.Proofs.Tree.Directories
import Graft.Proofs.Closure.Settled
import Graft.Proofs.Closure.Rerun
import Graft.Proofs.SymbolTable
import Graft.Proofs.Closure.Ends
import Graft.Proofs.Closure.Replay
import Graft.Proofs.Closure.Audit
import Graft.Proofs.Closure.Wording
import Graft.Proofs.Closure.Account
import Graft.Proofs.ManifestDifference
import Graft.Proofs.Tree.Destination
import Graft.Proofs.Closure.AuditFile
import Graft.Proofs.Tree.Connected
import Graft.Proofs.Closure.Mirror
import Graft.Proofs.Closure.Pending
import Graft.Proofs.SourcePath.Identity
import Graft.Proofs.SourcePath.Stability
import Graft.Proofs.Text.Layers
import Graft.Proofs.Diagnostics.Decoration
import Graft.Proofs.NameCleanup.Groups
import Graft.Proofs.NameCleanup.Moves
import Graft.Proofs.Settings
import Graft.Proofs.SymbolTable.Additions
import Graft.Proofs.Manifest.Positions
import Graft.Proofs.Text.Offsets
import Graft.Proofs.NameCleanup.Clause
import Graft.Proofs.FileName
import Graft.Proofs.Tree.Order
import Graft.Proofs.Tree.Entries
import Graft.Proofs.Tree.Walk
import Graft.Proofs.Job.Index
