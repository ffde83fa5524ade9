import LogRouter.Calendar.Date
import LogRouter.Calendar.Instant
import LogRouter.Calendar.Moment
import LogRouter.Calendar.Span
import LogRouter.CommandLine.Arguments
import LogRouter.CommandLine.Check
import LogRouter.CommandLine.Error
import LogRouter.CommandLine.Help
import LogRouter.CommandLine.Pipe
import LogRouter.CommandLine.Session
import LogRouter.Decimal.Binary64
import LogRouter.Decimal.Shortest
import LogRouter.Files.Changes
import LogRouter.Files.Error
import LogRouter.Files.FileSystem
import LogRouter.Files.Handle
import LogRouter.Files.Lz4
import LogRouter.Json.Printer
import LogRouter.Json.Reader
import LogRouter.Json.Value
import LogRouter.Label.Item
import LogRouter.Label.Match
import LogRouter.Label.Pattern
import LogRouter.Label.Render
import LogRouter.Label.Unit
import LogRouter.Level.Filter
import LogRouter.Level.Severity
import LogRouter.Main
import LogRouter.Path.Basic
import LogRouter.Path.Labelled
import LogRouter.Proofs.Calendar.Date
import LogRouter.Proofs.CommandLine.Piping
import LogRouter.Proofs.Decimal.Rounding
import LogRouter.Proofs.Files.Lz4
import LogRouter.Proofs.Files.Opening
import LogRouter.Proofs.Files.Operations
import LogRouter.Proofs.Files.Sound
import LogRouter.Proofs.Files.Walk
import LogRouter.Proofs.Json.Members
import LogRouter.Proofs.Json.Numerals
import LogRouter.Proofs.Json.RoundTrip
import LogRouter.Proofs.Label.Accepted
import LogRouter.Proofs.Label.Granularity
import LogRouter.Proofs.Label.Letters
import LogRouter.Proofs.Label.OtherYear
import LogRouter.Proofs.Label.Readable
import LogRouter.Proofs.Label.Stamps
import LogRouter.Proofs.Level.Severity
import LogRouter.Proofs.Path.Absolute
import LogRouter.Proofs.Path.Labelled
import LogRouter.Proofs.Path.Parts
import LogRouter.Proofs.Record.JsonLine
import LogRouter.Proofs.Record.TextFields
import LogRouter.Proofs.Record.TextLine
import LogRouter.Proofs.Retention.Age
import LogRouter.Proofs.Retention.AllOrNothing
import LogRouter.Proofs.Retention.Compress
import LogRouter.Proofs.Retention.Cutoff
import LogRouter.Proofs.Retention.Labels
import LogRouter.Proofs.Retention.Limit
import LogRouter.Proofs.Retention.Reached
import LogRouter.Proofs.Retention.Repeated
import LogRouter.Proofs.Retention.Sweep
import LogRouter.Proofs.Retention.Tidy
import LogRouter.Proofs.Route.Arrangement
import LogRouter.Proofs.Route.Capacity
import LogRouter.Proofs.Route.FirstOccurrences
import LogRouter.Proofs.Route.Registration
import LogRouter.Proofs.Route.Registry
import LogRouter.Proofs.Route.Reordering
import LogRouter.Proofs.Route.Table
import LogRouter.Proofs.Sink.Building
import LogRouter.Proofs.Sink.Caching
import LogRouter.Proofs.Sink.Closing
import LogRouter.Proofs.Sink.Counting
import LogRouter.Proofs.Sink.Delivery
import LogRouter.Proofs.Sink.Enabled
import LogRouter.Proofs.Sink.Events
import LogRouter.Proofs.Sink.Replies
import LogRouter.Proofs.Sink.Reports
import LogRouter.Proofs.Sink.Resolving
import LogRouter.Proofs.Sink.Run
import LogRouter.Proofs.Sink.Slots
import LogRouter.Proofs.Text.Utf8
import LogRouter.Proofs.Writer.BackupNames
import LogRouter.Proofs.Writer.BackupSweep
import LogRouter.Proofs.Writer.Backups
import LogRouter.Proofs.Writer.Buckets
import LogRouter.Proofs.Writer.DailyRun
import LogRouter.Proofs.Writer.Days
import LogRouter.Proofs.Writer.Failing
import LogRouter.Proofs.Writer.Lossless
import LogRouter.Proofs.Writer.OpenBucket
import LogRouter.Proofs.Writer.Recognized
import LogRouter.Proofs.Writer.Rolling
import LogRouter.Proofs.Writer.SiblingBackups
import LogRouter.Proofs.Writer.SiblingDays
import LogRouter.Proofs.Writer.SizeRun
import LogRouter.Proofs.Writer.Stock
import LogRouter.Proofs.Writer.StockRun
import LogRouter.Proofs.Writer.TimeRun
import LogRouter.Proofs.Writer.Upkeep
import LogRouter.Record.Basic
import LogRouter.Record.Encoder
import LogRouter.Retention.Compress
import LogRouter.Retention.Policy
import LogRouter.Retention.RotatedName
import LogRouter.Retention.Sweep
import LogRouter.Route.Error
import LogRouter.Route.Registry
import LogRouter.Route.Table
import LogRouter.Settings.Basic
import LogRouter.Settings.Document
import LogRouter.Settings.Error
import LogRouter.Settings.Load
import LogRouter.Sink.Build
import LogRouter.Sink.Composite
import LogRouter.Sink.Diagnostic
import LogRouter.Sink.DiagnosticFilter
import LogRouter.Sink.Error
import LogRouter.Sink.Event
import LogRouter.Sink.Metrics
import LogRouter.Sink.Reports
import LogRouter.Sink.Resolver
import LogRouter.Text.Alphanumeric
import LogRouter.Text.Blank
import LogRouter.Text.Expression
import LogRouter.Text.Hexadecimal
import LogRouter.Text.Lines
import LogRouter.Text.Printable
import LogRouter.Text.Quoted
import LogRouter.Text.Utf8
import LogRouter.Toml.Document
import LogRouter.Toml.Scalar
import LogRouter.Toml.Value
import LogRouter.Writer.Console
import LogRouter.Writer.Fleet
import LogRouter.Writer.Rotation
import LogRouter.Writer.SizeWriter
import LogRouter.Writer.TimeWriter
import LogRouter.Writer.Trial
