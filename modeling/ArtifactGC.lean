import ArtifactGC.Artifact
import ArtifactGC.Ascending
import ArtifactGC.Assembly
import ArtifactGC.Candidates
import ArtifactGC.Codec.Artifact
import ArtifactGC.Codec.Outcome
import ArtifactGC.Codec.Policy
import ArtifactGC.Codec.Scalar
import ArtifactGC.Codec.Snapshot
import ArtifactGC.Codec.Standard
import ArtifactGC.Command.Arguments
import ArtifactGC.Command.Help
import ArtifactGC.Command.Local
import ArtifactGC.Command.Run
import ArtifactGC.Distinct
import ArtifactGC.Double
import ArtifactGC.Double.Decimal
import ArtifactGC.Double.Reading
import ArtifactGC.Event
import ArtifactGC.Execution
import ArtifactGC.Failure
import ArtifactGC.Hasher
import ArtifactGC.Id
import ArtifactGC.Instant
import ArtifactGC.Instant.Calendar
import ArtifactGC.Instant.Text
import ArtifactGC.Json
import ArtifactGC.Json.Printer
import ArtifactGC.Json.Reader
import ArtifactGC.Json.Record
import ArtifactGC.KeyMap
import ArtifactGC.Local.FileTree
import ArtifactGC.Local.Host
import ArtifactGC.Local.PathError
import ArtifactGC.Local.Storage
import ArtifactGC.LogEntry
import ArtifactGC.Main
import ArtifactGC.Memory
import ArtifactGC.Memory.Storage
import ArtifactGC.Memory.Store
import ArtifactGC.Node
import ArtifactGC.Outcome
import ArtifactGC.Pass
import ArtifactGC.Passes
import ArtifactGC.Policy
import ArtifactGC.Procedure
import ArtifactGC.Proofs.Abort
import ArtifactGC.Proofs.Accounting
import ArtifactGC.Proofs.Batches
import ArtifactGC.Proofs.BrokenPolicy
import ArtifactGC.Proofs.Buckets
import ArtifactGC.Proofs.ByteOrder
import ArtifactGC.Proofs.Calendar
import ArtifactGC.Proofs.Candidates
import ArtifactGC.Proofs.Collections
import ArtifactGC.Proofs.Commands
import ArtifactGC.Proofs.Consumption
import ArtifactGC.Proofs.Contract
import ArtifactGC.Proofs.Digits
import ArtifactGC.Proofs.DryRun
import ArtifactGC.Proofs.Effects
import ArtifactGC.Proofs.Evaluation
import ArtifactGC.Proofs.FileTrees
import ArtifactGC.Proofs.Filters
import ArtifactGC.Proofs.FiniteDoubles
import ArtifactGC.Proofs.Footprint
import ArtifactGC.Proofs.Groups
import ArtifactGC.Proofs.GuardedCodec
import ArtifactGC.Proofs.Heeding
import ArtifactGC.Proofs.Histories
import ArtifactGC.Proofs.Idempotence
import ArtifactGC.Proofs.Identifiers
import ArtifactGC.Proofs.Independence
import ArtifactGC.Proofs.Interleaving
import ArtifactGC.Proofs.Isolation
import ArtifactGC.Proofs.JsonText
import ArtifactGC.Proofs.Ledger
import ArtifactGC.Proofs.Lifecycle
import ArtifactGC.Proofs.Listings
import ArtifactGC.Proofs.Live
import ArtifactGC.Proofs.Loosening
import ArtifactGC.Proofs.Machines
import ArtifactGC.Proofs.Marking
import ArtifactGC.Proofs.Neighbours
import ArtifactGC.Proofs.Newest
import ArtifactGC.Proofs.Origin
import ArtifactGC.Proofs.OutputKeys
import ArtifactGC.Proofs.Pass
import ArtifactGC.Proofs.Peers
import ArtifactGC.Proofs.Performing
import ArtifactGC.Proofs.Planning
import ArtifactGC.Proofs.PropertyValue
import ArtifactGC.Proofs.Protocol
import ArtifactGC.Proofs.Purge
import ArtifactGC.Proofs.Recency
import ArtifactGC.Proofs.RecordCodec
import ArtifactGC.Proofs.Recording
import ArtifactGC.Proofs.Recovery
import ArtifactGC.Proofs.Refusals
import ArtifactGC.Proofs.Reloading
import ArtifactGC.Proofs.Remainder
import ArtifactGC.Proofs.Removals
import ArtifactGC.Proofs.Representatives
import ArtifactGC.Proofs.Retention
import ArtifactGC.Proofs.RoundTrip
import ArtifactGC.Proofs.Rounding
import ArtifactGC.Proofs.Runs
import ArtifactGC.Proofs.Safety
import ArtifactGC.Proofs.Services
import ArtifactGC.Proofs.Settlement
import ArtifactGC.Proofs.ShortestNumerals
import ArtifactGC.Proofs.StandardTexts
import ArtifactGC.Proofs.Storage
import ArtifactGC.Proofs.Timestamps
import ArtifactGC.Proofs.Transcripts
import ArtifactGC.Proofs.Usage
import ArtifactGC.Proofs.ValueComparison
import ArtifactGC.PropertyValue
import ArtifactGC.Purge
import ArtifactGC.Request
import ArtifactGC.Retention
import ArtifactGC.Retention.Buckets
import ArtifactGC.Retention.Groups
import ArtifactGC.Retention.Recency
import ArtifactGC.Snapshot
import ArtifactGC.StorageError
import ArtifactGC.Table
import ArtifactGC.Text.Blank
import ArtifactGC.Text.Printable
import ArtifactGC.Text.Quoted
import ArtifactGC.Usage
