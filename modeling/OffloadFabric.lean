import OffloadFabric.Base.Bytes
import OffloadFabric.Base.ReasonCode
import OffloadFabric.Base.Checked
import OffloadFabric.Base.Digest
import OffloadFabric.Base.Units
import OffloadFabric.Base.Bounds
import OffloadFabric.Lib.Fallible
import OffloadFabric.Lib.Codec
import OffloadFabric.Lib.Table
import OffloadFabric.Model.Scope
import OffloadFabric.Model.Evidence
import OffloadFabric.Model.Request
import OffloadFabric.Wire.Binary
import OffloadFabric.Wire.Records
import OffloadFabric.Wire.RoundTrip
import OffloadFabric.Fabric.State
import OffloadFabric.Fabric.Index
import OffloadFabric.Fabric.Payload
import OffloadFabric.Journal.Log
import OffloadFabric.Fabric.Validity
import OffloadFabric.Fabric.Placement
import OffloadFabric.Fabric.Runtime
import OffloadFabric.Fabric.Revalidate
import OffloadFabric.Fabric.Ingest
import OffloadFabric.Fabric.Authorize
import OffloadFabric.Fabric.Lifecycle
import OffloadFabric.Fabric.Listing
import OffloadFabric.Fabric.Recovery
import OffloadFabric.Fabric.Run
import OffloadFabric.Fabric.Changes
import OffloadFabric.Fabric.Course
import OffloadFabric.Wire.Extends
import OffloadFabric.Fabric.Evidence
import OffloadFabric.Properties.Revalidation
import OffloadFabric.Fabric.PayloadRoundTrip
import OffloadFabric.Fabric.Replay
import OffloadFabric.Fabric.Steps
import OffloadFabric.Fabric.Counters
import OffloadFabric.Fabric.Fencing
import OffloadFabric.Properties.Fencing
import OffloadFabric.Fabric.EveryRecord
import OffloadFabric.Fabric.Transitions
import OffloadFabric.Properties.VerifiedApplication
import OffloadFabric.Fabric.Candidates
import OffloadFabric.Properties.CapabilityMatch
import OffloadFabric.Fabric.Verdicts
import OffloadFabric.Fabric.Answers
import OffloadFabric.Properties.Paging
import OffloadFabric.Properties.PlacementValidity
import OffloadFabric.Properties.Authority
import OffloadFabric.Lib.Settles
import OffloadFabric.Fabric.Durable
import OffloadFabric.Fabric.Mirror
import OffloadFabric.Fabric.Currency
import OffloadFabric.Properties.Restart
import OffloadFabric.Wire.Domain
import OffloadFabric.Lib.Layout
import OffloadFabric.Wire.Canonical
import OffloadFabric.Wire.Format
import OffloadFabric.Properties.WireFormat
import OffloadFabric.Properties.Snapshot
import OffloadFabric.Properties.Histories
import OffloadFabric.Fabric.Claims
import OffloadFabric.Properties.Terminal
import OffloadFabric.Properties.PlanApplication
import OffloadFabric.Properties.Replacement
import OffloadFabric.Lib.Errors
import OffloadFabric.Fabric.Oversized
import OffloadFabric.Fabric.Uncancelled
import OffloadFabric.Fabric.Cancellation
import OffloadFabric.Properties.Cancellation
import OffloadFabric.Lib.History
import OffloadFabric.Base.Crc32c
import OffloadFabric.Lib.Framed
import OffloadFabric.Journal.Record
import OffloadFabric.Journal.Scan
import OffloadFabric.Journal.Store
import OffloadFabric.Journal.Replay
import OffloadFabric.Journal.Cut
import OffloadFabric.Journal.Reopen
import OffloadFabric.Journal.Append
import OffloadFabric.Journal.Front
import OffloadFabric.Service.Frame
import OffloadFabric.Service.Decoder
import OffloadFabric.Properties.Framing
import OffloadFabric.Lib.Fifo
import OffloadFabric.Service.Server
import OffloadFabric.Properties.ResponseCache
import OffloadFabric.Fabric.Idempotency
import OffloadFabric.Properties.IdempotencyStore
import OffloadFabric.Lib.Index
import OffloadFabric.Fabric.Indexes
import OffloadFabric.Properties.RepeatedRevalidation
import OffloadFabric.Properties.ReassignmentBudget
import OffloadFabric.Properties.RecoveredIndexes
import OffloadFabric.Base.CheckedArithmetic
import OffloadFabric.Properties.CheckedArithmetic
import OffloadFabric.Lib.Least
import OffloadFabric.Properties.Utilization
import OffloadFabric.Fabric.Selection
import OffloadFabric.Properties.CandidateSelection
import OffloadFabric.Base.Hasher
import OffloadFabric.Lib.SecureHash
import OffloadFabric.Properties.SecureHash
import OffloadFabric.Properties.DecoderMemory
import OffloadFabric.Json.Value
import OffloadFabric.Json.Text
import OffloadFabric.Properties.JsonOutput
import OffloadFabric.Properties.JsonReader
import OffloadFabric.Json.Reader
import OffloadFabric.Json.Grammar
import OffloadFabric.Json.Scan
import OffloadFabric.Json.Tokens
import OffloadFabric.Json.Accepts
import OffloadFabric.Properties.JsonRoundTrip
import OffloadFabric.Lib.Gather
import OffloadFabric.Fabric.Audit
import OffloadFabric.Fabric.AuditChecks
import OffloadFabric.Properties.InvariantReport
import OffloadFabric.Lib.Delimited
import OffloadFabric.Properties.ScopeIdentity
import OffloadFabric.Lib.Keeps
import OffloadFabric.Fabric.Kept
import OffloadFabric.Properties.BoundedGrowth
import OffloadFabric.Properties.Capacity
import OffloadFabric.Properties.EvidenceOrder
import OffloadFabric.Properties.Durability
import OffloadFabric.Properties.Exclusivity
import OffloadFabric.Properties.LifeCycle
import OffloadFabric.Fabric.Identities
import OffloadFabric.Properties.ServedRuns
import OffloadFabric.Journal.Session
import OffloadFabric.Properties.StoreRefinement
import OffloadFabric.Service.Connection
import OffloadFabric.Properties.ServedCalls
import OffloadFabric.Properties.InterruptedCompaction
import OffloadFabric.Properties.RecordedRequests
import OffloadFabric.Properties.TornTail
import OffloadFabric.Properties.FailedAppend
import OffloadFabric.Properties.Corruption
import OffloadFabric.Fabric.Committed
