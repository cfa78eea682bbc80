import LidarSync.Blueprint.Basic
import LidarSync.Blueprint.Decoder
import LidarSync.Blueprint.Encoder
import LidarSync.Blueprint.Load
import LidarSync.Blueprint.Valid
import LidarSync.Cloud.Basic
import LidarSync.Cloud.Packed
import LidarSync.Cloud.Ply
import LidarSync.CommandLine.Execution
import LidarSync.CommandLine.Grammar
import LidarSync.CommandLine.Info
import LidarSync.CommandLine.Invocation
import LidarSync.CommandLine.Number
import LidarSync.CommandLine.Validation
import LidarSync.Decimal.Basic
import LidarSync.Decimal.Binary
import LidarSync.Decimal.Layout
import LidarSync.Decimal.Rounded
import LidarSync.Decimal.Shortest
import LidarSync.Diagnostics
import LidarSync.Disk
import LidarSync.Document.Basic
import LidarSync.Document.Decoder
import LidarSync.Document.Fields
import LidarSync.Document.Json.Parser
import LidarSync.Document.Json.Printer
import LidarSync.Document.Scan
import LidarSync.Document.Shape
import LidarSync.Document.Toml.Literal
import LidarSync.Document.Toml.Parser
import LidarSync.Document.Toml.Table
import LidarSync.Geometry.FrameGraph
import LidarSync.Geometry.Placement
import LidarSync.Geometry.Pose
import LidarSync.Keyed
import LidarSync.Main
import LidarSync.Message.Canonical
import LidarSync.Message.Decoder
import LidarSync.Message.Encoder
import LidarSync.Metrics.Recorder
import LidarSync.Metrics.RoundTally
import LidarSync.Metrics.RunSummary
import LidarSync.Metrics.RunningStats
import LidarSync.Motion.Bisection
import LidarSync.Motion.Compensation
import LidarSync.Motion.Compensator
import LidarSync.Motion.History
import LidarSync.Outbox
import LidarSync.Round.Alignment
import LidarSync.Round.Deadline
import LidarSync.Round.Engine
import LidarSync.Round.Scheduler
import LidarSync.Round.Slots
import LidarSync.Round.Synchronizer
import LidarSync.Run
import LidarSync.Scalar
import LidarSync.Single
import LidarSync.Sink.Archive
import LidarSync.Sink.Channel
import LidarSync.Sink.Dispatcher
import LidarSync.Sink.Feed
import LidarSync.Sink.RoundLog
import LidarSync.Sink.Tally
import LidarSync.Source.Basic
import LidarSync.Source.Pool
import LidarSync.SyncedSet
import LidarSync.Text.Blank
import LidarSync.Text.Boundaries
import LidarSync.Text.Extender
import LidarSync.Text.Quoted
import LidarSync.Text.Segments
import LidarSync.Text.Unprintable
import LidarSync.Topic
import LidarSync.Velocity
import LidarSync.Proofs.Blueprint.RoundTrip
import LidarSync.Proofs.Blueprint.Storable
import LidarSync.Proofs.Blueprint.Valid
import LidarSync.Proofs.Cloud.Points
import LidarSync.Proofs.Cloud.Packed
import LidarSync.Proofs.Decimal.Difference
import LidarSync.Proofs.Decimal.Double
import LidarSync.Proofs.Decimal.Order
import LidarSync.Proofs.Decimal.Rounded
import LidarSync.Proofs.Document.Decoder
import LidarSync.Proofs.Document.Fields
import LidarSync.Proofs.Document.Written
import LidarSync.Proofs.Keyed
import LidarSync.Proofs.Geometry.Hops
import LidarSync.Proofs.Geometry.Search
import LidarSync.Proofs.Metrics.Recorder
import LidarSync.Proofs.Motion.Places
import LidarSync.Proofs.Motion.Bisection
import LidarSync.Proofs.Motion.Orderly
import LidarSync.Proofs.Motion.Selection
import LidarSync.Proofs.Motion.Retention
import LidarSync.Proofs.Motion.Chain
import LidarSync.Proofs.Motion.Finality
import LidarSync.Proofs.Outbox
import LidarSync.Proofs.Outcome
import LidarSync.Proofs.Round.Acceptance
import LidarSync.Proofs.Round.Alignment
import LidarSync.Proofs.Round.Backpressure
import LidarSync.Proofs.Round.Classes
import LidarSync.Proofs.Round.Collector
import LidarSync.Proofs.Round.Delay
import LidarSync.Proofs.Round.Failures
import LidarSync.Proofs.Round.Handover
import LidarSync.Proofs.Round.Indifference
import LidarSync.Proofs.Round.Interplay
import LidarSync.Proofs.Round.Invariant
import LidarSync.Proofs.Round.Latency
import LidarSync.Proofs.Round.Likeness
import LidarSync.Proofs.Round.Lockstep
import LidarSync.Proofs.Round.Lost
import LidarSync.Proofs.Round.Moves
import LidarSync.Proofs.Round.Pace
import LidarSync.Proofs.Round.Pending
import LidarSync.Proofs.Round.Rejections
import LidarSync.Proofs.Round.Sending
import LidarSync.Proofs.Round.Slots
import LidarSync.Proofs.Round.Stamps
import LidarSync.Proofs.Round.Status
import LidarSync.Proofs.Round.Stranded
import LidarSync.Proofs.Round.Turns
import LidarSync.Proofs.Decimal.Quotient
import LidarSync.Proofs.Decimal.Sum
import LidarSync.Proofs.Source.Period
import LidarSync.Proofs.Source.Pool
import LidarSync.Proofs.Blueprint.Start
import LidarSync.Proofs.Sink.Plans
import LidarSync.Proofs.CommandLine.Agreement
import LidarSync.Proofs.Sink.Lane
import LidarSync.Proofs.Sink.Dispatch
import LidarSync.Proofs.Run.Flow
import LidarSync.Proofs.Sink.Lockstep
import LidarSync.Proofs.Run.Lockstep
import LidarSync.Proofs.Run.Accounts
import LidarSync.Proofs.Motion.Exact
import LidarSync.Proofs.Motion.Walk
import LidarSync.Proofs.Motion.Coverage
import LidarSync.Proofs.Motion.Telescope
import LidarSync.Proofs.Motion.Planar
import LidarSync.Proofs.Geometry.Rigid
import LidarSync.Proofs.Geometry.Forest
import LidarSync.Proofs.Round.Publishing
import LidarSync.Proofs.Disk
import LidarSync.Proofs.Round.Batch
import LidarSync.Proofs.Sink.Archive
import LidarSync.Proofs.Blueprint.Rules
import LidarSync.Proofs.CommandLine.Override
import LidarSync.Proofs.Document.Respelling
import LidarSync.Proofs.Document.RespelledRecords
import LidarSync.Proofs.Blueprint.Respelling
import LidarSync.Proofs.Round.Watch
import LidarSync.Proofs.Sink.Relay
import LidarSync.Proofs.Round.Tallies
import LidarSync.Proofs.Cloud.Ply
import LidarSync.Proofs.Cloud.Codec
import LidarSync.Proofs.Metrics.Moments
import LidarSync.Proofs.Sink.Containment
import LidarSync.Proofs.Source.Producers
