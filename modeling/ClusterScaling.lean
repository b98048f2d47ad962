import ClusterScaling.Change.Status
import ClusterScaling.Change.Watch
import ClusterScaling.Client.Basic
import ClusterScaling.Client.Dialogue
import ClusterScaling.Client.Error
import ClusterScaling.Client.Session
import ClusterScaling.Command
import ClusterScaling.CommandLine.Arguments
import ClusterScaling.CommandLine.Basic
import ClusterScaling.Decimal.Binary64
import ClusterScaling.Decimal.Numeral
import ClusterScaling.Decimal.Shortest
import ClusterScaling.Duration
import ClusterScaling.Endpoint.Basic
import ClusterScaling.Endpoint.Uri
import ClusterScaling.Error
import ClusterScaling.Failover
import ClusterScaling.Http.Exchange
import ClusterScaling.Http.Message
import ClusterScaling.Http.Server
import ClusterScaling.Http.Status
import ClusterScaling.Json.Decode
import ClusterScaling.Json.Mismatch
import ClusterScaling.Json.Numeral
import ClusterScaling.Json.Reader
import ClusterScaling.Json.Shape
import ClusterScaling.Json.Tree
import ClusterScaling.Json.Value
import ClusterScaling.Main
import ClusterScaling.Plan
import ClusterScaling.Region
import ClusterScaling.Request.Basic
import ClusterScaling.Request.BrokerList
import ClusterScaling.Run.Environment
import ClusterScaling.Run.Flag
import ClusterScaling.Run.Notice
import ClusterScaling.Run.Polling
import ClusterScaling.Run.Program
import ClusterScaling.Run.Script
import ClusterScaling.Scaling
import ClusterScaling.Settings.Basic
import ClusterScaling.Settings.File
import ClusterScaling.Text.Basic
import ClusterScaling.Text.Unprintable
import ClusterScaling.Text.Utf8
import ClusterScaling.Toml.Decode
import ClusterScaling.Toml.Document
import ClusterScaling.Toml.Lexeme
import ClusterScaling.Toml.Value
import ClusterScaling.Topology.Basic
import ClusterScaling.Topology.Format
import ClusterScaling.Proofs.Change.Attribution
import ClusterScaling.Proofs.Change.Progress
import ClusterScaling.Proofs.Change.Verdict
import ClusterScaling.Proofs.Client.Conversation
import ClusterScaling.Proofs.Client.Submission
import ClusterScaling.Proofs.Decimal.Spelling
import ClusterScaling.Proofs.Duration.Spelling
import ClusterScaling.Proofs.Endpoint.Authority
import ClusterScaling.Proofs.Endpoint.BasePath
import ClusterScaling.Proofs.Endpoint.Parts
import ClusterScaling.Proofs.Failover.Readiness
import ClusterScaling.Proofs.Failover.RemovalOrder
import ClusterScaling.Proofs.Failover.Survivors
import ClusterScaling.Proofs.Json.Decoding
import ClusterScaling.Proofs.Json.Integers
import ClusterScaling.Proofs.Json.Reading
import ClusterScaling.Proofs.Json.Rearrangement
import ClusterScaling.Proofs.Json.Replacement
import ClusterScaling.Proofs.Json.RoundTrip
import ClusterScaling.Proofs.Json.Schema
import ClusterScaling.Proofs.Json.Spelling
import ClusterScaling.Proofs.Json.Writing
import ClusterScaling.Proofs.Plan.Convergence
import ClusterScaling.Proofs.Plan.Decision
import ClusterScaling.Proofs.Request.BrokerCount
import ClusterScaling.Proofs.Request.BrokerMembers
import ClusterScaling.Proofs.Request.Building
import ClusterScaling.Proofs.Run.ClockEnd
import ClusterScaling.Proofs.Run.Course
import ClusterScaling.Proofs.Run.Endings
import ClusterScaling.Proofs.Run.Exchanges
import ClusterScaling.Proofs.Run.Pacing
import ClusterScaling.Proofs.Run.Parts
import ClusterScaling.Proofs.Run.Prolonged
import ClusterScaling.Proofs.Run.Replies
import ClusterScaling.Proofs.Run.Signal
import ClusterScaling.Proofs.Run.StopsInWaits
import ClusterScaling.Proofs.Run.Waits
import ClusterScaling.Proofs.Run.Yields
import ClusterScaling.Proofs.Scaling.CallOrder
import ClusterScaling.Proofs.Settings.Override
import ClusterScaling.Proofs.Settings.PartialFiles
import ClusterScaling.Proofs.Settings.Validation
import ClusterScaling.Proofs.Signal.Heeded
import ClusterScaling.Proofs.Text.Trimming
import ClusterScaling.Proofs.Toml.Decoding
import ClusterScaling.Proofs.Toml.Items
import ClusterScaling.Proofs.Toml.Outline
import ClusterScaling.Proofs.Toml.Places
import ClusterScaling.Proofs.Toml.Reading
import ClusterScaling.Proofs.Toml.Refusals
import ClusterScaling.Proofs.Toml.Spelling
import ClusterScaling.Proofs.Toml.Tables
import ClusterScaling.Proofs.Toml.Texts
import ClusterScaling.Proofs.Toml.Values
import ClusterScaling.Proofs.Toml.Variation
import ClusterScaling.Proofs.Toml.Words
import ClusterScaling.Proofs.Topology.BrokerOrder
import ClusterScaling.Proofs.Topology.Meaning
import ClusterScaling.Proofs.Topology.Regions
import ClusterScaling.Proofs.Topology.RoundTrip
import ClusterScaling.Proofs.Topology.Schema
import ClusterScaling.Proofs.Topology.Strategies
import ClusterScaling.Proofs.Duration.Minutes
