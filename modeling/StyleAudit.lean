import StyleAudit.Cache.Entry
import StyleAudit.Cache.Sharing
import StyleAudit.Cache.Store
import StyleAudit.CharSet.Age
import StyleAudit.CharSet.Basic
import StyleAudit.CharSet.Boundary
import StyleAudit.CharSet.CaseFold
import StyleAudit.CharSet.Category
import StyleAudit.CharSet.Named
import StyleAudit.CharSet.Property
import StyleAudit.CharSet.Script
import StyleAudit.CharSet.Table
import StyleAudit.Config.Basic
import StyleAudit.Config.Decode
import StyleAudit.Config.Extends
import StyleAudit.Config.Merge
import StyleAudit.Config.Overrides
import StyleAudit.Config.Resolved
import StyleAudit.Config.RuleSettings
import StyleAudit.Config.Source
import StyleAudit.Digest.Blake3
import StyleAudit.Disable.Directive
import StyleAudit.Disable.Range
import StyleAudit.Disable.Report
import StyleAudit.Disable.Settings
import StyleAudit.Discovery
import StyleAudit.Error
import StyleAudit.FileSystem
import StyleAudit.Glob.Basic
import StyleAudit.Glob.Match
import StyleAudit.Glob.PatternSet
import StyleAudit.Ignore.Ignorer
import StyleAudit.Ignore.Pattern
import StyleAudit.Json.Numeral
import StyleAudit.Json.Printer
import StyleAudit.Json.Reader
import StyleAudit.Json.Record
import StyleAudit.Json.Value
import StyleAudit.Lint.Batch
import StyleAudit.Lint.Check
import StyleAudit.Lint.Linter
import StyleAudit.Lint.Run
import StyleAudit.Lint.Source
import StyleAudit.Number.Binary64
import StyleAudit.Number.Shortest
import StyleAudit.Options.Basic
import StyleAudit.Options.Decode
import StyleAudit.Path
import StyleAudit.Proofs.Anchoring
import StyleAudit.Proofs.Appending
import StyleAudit.Proofs.Building
import StyleAudit.Proofs.ByteReading
import StyleAudit.Proofs.ByteScanning
import StyleAudit.Proofs.Caching
import StyleAudit.Proofs.CanonicalForm
import StyleAudit.Proofs.Complements
import StyleAudit.Proofs.Decoding
import StyleAudit.Proofs.Disabling
import StyleAudit.Proofs.DistinctKeys
import StyleAudit.Proofs.Entries
import StyleAudit.Proofs.Escapes
import StyleAudit.Proofs.Everywhere
import StyleAudit.Proofs.Exclusion
import StyleAudit.Proofs.Extending
import StyleAudit.Proofs.Failing
import StyleAudit.Proofs.Fixing
import StyleAudit.Proofs.Flags
import StyleAudit.Proofs.Footprint
import StyleAudit.Proofs.GivenCode
import StyleAudit.Proofs.Ignoring
import StyleAudit.Proofs.Interleaving
import StyleAudit.Proofs.Isolation
import StyleAudit.Proofs.Items
import StyleAudit.Proofs.Joining
import StyleAudit.Proofs.LineIndex
import StyleAudit.Proofs.LiteralEntries
import StyleAudit.Proofs.Lockstep
import StyleAudit.Proofs.Lossless
import StyleAudit.Proofs.Meaning
import StyleAudit.Proofs.Merging
import StyleAudit.Proofs.Naming
import StyleAudit.Proofs.Nesting
import StyleAudit.Proofs.NormalPaths
import StyleAudit.Proofs.Normalizing
import StyleAudit.Proofs.Numerals
import StyleAudit.Proofs.Offsets
import StyleAudit.Proofs.Outcomes
import StyleAudit.Proofs.Paths
import StyleAudit.Proofs.PendingFixes
import StyleAudit.Proofs.Persistence
import StyleAudit.Proofs.Pieces
import StyleAudit.Proofs.Placement
import StyleAudit.Proofs.Places
import StyleAudit.Proofs.PluginRules
import StyleAudit.Proofs.Positions
import StyleAudit.Proofs.Precedence
import StyleAudit.Proofs.Quiet
import StyleAudit.Proofs.Reading
import StyleAudit.Proofs.Remembering
import StyleAudit.Proofs.Rendering
import StyleAudit.Proofs.Reporting
import StyleAudit.Proofs.Resolution
import StyleAudit.Proofs.Rewording
import StyleAudit.Proofs.Roots
import StyleAudit.Proofs.RoundTrip
import StyleAudit.Proofs.Sameness
import StyleAudit.Proofs.Saving
import StyleAudit.Proofs.Scanning
import StyleAudit.Proofs.Searching
import StyleAudit.Proofs.Settling
import StyleAudit.Proofs.Skipping
import StyleAudit.Proofs.Spans
import StyleAudit.Proofs.Together
import StyleAudit.Proofs.Transparency
import StyleAudit.Proofs.Turns
import StyleAudit.Proofs.WriteBack
import StyleAudit.Proofs.Written
import StyleAudit.Regex.Basic
import StyleAudit.Regex.Match
import StyleAudit.Regex.Meaning
import StyleAudit.Regex.Reader
import StyleAudit.Regex.Size
import StyleAudit.Regex.Syntax
import StyleAudit.Registry.Basic
import StyleAudit.Registry.Description
import StyleAudit.Registry.Stock
import StyleAudit.Report.Aggregate
import StyleAudit.Report.Format
import StyleAudit.Report.Result
import StyleAudit.Rule.Basic
import StyleAudit.Rule.Stock
import StyleAudit.Sheet.ByteReader
import StyleAudit.Sheet.Fault
import StyleAudit.Sheet.Indexed
import StyleAudit.Sheet.Json
import StyleAudit.Sheet.Node
import StyleAudit.Sheet.Position
import StyleAudit.Sheet.Reader
import StyleAudit.Sheet.Walk
import StyleAudit.Table
import StyleAudit.Text.Alphanumeric
import StyleAudit.Text.Blank
import StyleAudit.Warning
