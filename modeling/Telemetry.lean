import Telemetry.Basic
import Telemetry.Category
import Telemetry.Config.Basic
import Telemetry.Config.Build
import Telemetry.Config.Check
import Telemetry.Config.Format
import Telemetry.Csv.Rotation
import Telemetry.Csv.Row
import Telemetry.Csv.Sink
import Telemetry.Decimal.Binary64
import Telemetry.Decimal.Layout
import Telemetry.Decimal.Shortest
import Telemetry.Dictionary
import Telemetry.Event
import Telemetry.EventId
import Telemetry.FailureReport
import Telemetry.Fault
import Telemetry.Host
import Telemetry.Identifier
import Telemetry.Journal
import Telemetry.Json.Basic
import Telemetry.Json.Document
import Telemetry.Json.Fields
import Telemetry.Json.Token
import Telemetry.Logger.Activity
import Telemetry.Logger.Basic
import Telemetry.Logger.Channel
import Telemetry.Marker.Sink
import Telemetry.Marker.Snapshot
import Telemetry.Path
import Telemetry.Proofs.Config.RoundTrip
import Telemetry.Proofs.Config.Sufficient
import Telemetry.Proofs.Config.Usable
import Telemetry.Proofs.Csv.Delivery
import Telemetry.Proofs.Csv.Names
import Telemetry.Proofs.Csv.Ordinals
import Telemetry.Proofs.Csv.Reading
import Telemetry.Proofs.Csv.Restart
import Telemetry.Proofs.Csv.RotationSet
import Telemetry.Proofs.Csv.Writing
import Telemetry.Proofs.Decimal.Numeral
import Telemetry.Proofs.FailureReport
import Telemetry.Proofs.Json.Fields
import Telemetry.Proofs.Json.Literal
import Telemetry.Proofs.Json.Reading
import Telemetry.Proofs.Json.Scanning
import Telemetry.Proofs.Json.Size
import Telemetry.Proofs.Logger.FinalFlush
import Telemetry.Proofs.Logger.Holdings
import Telemetry.Proofs.Logger.Isolation
import Telemetry.Proofs.Logger.Settling
import Telemetry.Proofs.Logger.Shutdown
import Telemetry.Proofs.Logger.Tracing
import Telemetry.Proofs.Logger.Unchanged
import Telemetry.Proofs.Logger.Wrapping
import Telemetry.Proofs.Marker.Answers
import Telemetry.Proofs.Marker.Columns
import Telemetry.Proofs.Marker.Custody
import Telemetry.Proofs.Marker.Once
import Telemetry.Proofs.Property.Inserting
import Telemetry.Proofs.Property.Reference
import Telemetry.Proofs.Retry
import Telemetry.Proofs.Sampling.Sharing
import Telemetry.Proofs.Sink.CatchingUp
import Telemetry.Proofs.Sink.Draining
import Telemetry.Proofs.Sink.FileCatchingUp
import Telemetry.Proofs.Sink.FileDraining
import Telemetry.Proofs.Sink.FileHoldings
import Telemetry.Proofs.Sink.FileSinks
import Telemetry.Proofs.Sink.FileTrying
import Telemetry.Proofs.Sink.Holdings
import Telemetry.Proofs.Sink.Keeping
import Telemetry.Proofs.Sink.OnTime
import Telemetry.Proofs.Sink.Operations
import Telemetry.Proofs.Sink.Pauses
import Telemetry.Proofs.Sink.Pausing
import Telemetry.Proofs.Sink.Running
import Telemetry.Proofs.Sink.Settling
import Telemetry.Proofs.Sink.Steps
import Telemetry.Proofs.Sink.StopBound
import Telemetry.Proofs.Sink.Stopping
import Telemetry.Proofs.Sink.Sum
import Telemetry.Proofs.Sink.Tapped
import Telemetry.Proofs.Sink.Use
import Telemetry.Proofs.Storage.Lawful
import Telemetry.Proofs.Storage.Listing
import Telemetry.Proofs.Storage.Watched
import Telemetry.Proofs.Stream.Batches
import Telemetry.Proofs.Stream.Conservation
import Telemetry.Proofs.Stream.Dimensions
import Telemetry.Proofs.Stream.Draining
import Telemetry.Proofs.Stream.Ledger
import Telemetry.Proofs.Stream.Turns
import Telemetry.Proofs.Summary.Clipping
import Telemetry.Proofs.Summary.Closing
import Telemetry.Proofs.Summary.Mirror
import Telemetry.Proofs.Summary.Tables
import Telemetry.Proofs.Text.Escape
import Telemetry.Proofs.Trace.Budget
import Telemetry.Proofs.Trace.Context
import Telemetry.Proofs.Trace.Lines
import Telemetry.Proofs.Trace.Shadowing
import Telemetry.Proofs.Trace.Shapes
import Telemetry.Proofs.Trace.Slack
import Telemetry.Property.Basic
import Telemetry.Property.Value
import Telemetry.Record
import Telemetry.Retry
import Telemetry.Route
import Telemetry.Sampling
import Telemetry.Severity
import Telemetry.Sink.Basic
import Telemetry.Sink.Probe
import Telemetry.Sink.Service
import Telemetry.Sink.Sum
import Telemetry.Sink.Work
import Telemetry.Storage.Memory
import Telemetry.Storage.Tree
import Telemetry.Stream.Envelope
import Telemetry.Stream.Queue
import Telemetry.Stream.Sink
import Telemetry.Summary.Block
import Telemetry.Summary.Message
import Telemetry.Summary.Metric
import Telemetry.Summary.Outcome
import Telemetry.Summary.Output
import Telemetry.Summary.Report
import Telemetry.Summary.Sink
import Telemetry.Text.Escape
import Telemetry.Text.Lines
import Telemetry.Time.Civil
import Telemetry.Time.Instant
import Telemetry.Time.Reader
import Telemetry.Time.Span
import Telemetry.Trace.Budget
import Telemetry.Trace.Sink
import Telemetry.Trace.Transport
import Telemetry.World
