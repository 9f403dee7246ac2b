import OffloadFabric.Base.ReasonCode

/-!
# Resource bounds

The bounds record of `include/nof/bounds.hpp:14-72` with its defaults and the validation of
`src/bounds.cpp:20-118`. Every field is a `std::size_t`, a 64-bit word here, because the
decoders multiply bounds by small constants and the products wrap.
-/

namespace OffloadFabric

/-- `Bounds`, `include/nof/bounds.hpp:14-72`. -/
structure Bounds where
  maxHosts : UInt64 := 4096
  maxDevices : UInt64 := 16384
  maxFunctions : UInt64 := 65536
  maxScopes : UInt64 := 65536
  maxAssignments : UInt64 := 65536
  maxActiveAssignments : UInt64 := 65536
  maxDependenciesPerRequest : UInt64 := 64
  maxAffinityEntries : UInt64 := 64
  maxAntiAffinityEntries : UInt64 := 64
  maxSources : UInt64 := 4096
  maxCapabilityRecords : UInt64 := 262144
  maxObservations : UInt64 := 262144
  maxAuthorityGrants : UInt64 := 65536
  maxSemanticsPerRequirement : UInt64 := 32
  maxReasonsPerExplanation : UInt64 := 24
  maxReasonDetailBytes : UInt64 := 256
  maxCandidatesPerPlan : UInt64 := 8192
  maxCandidatesReported : UInt64 := 256
  maxHistoryPerAssignment : UInt64 := 32
  maxEffectsPerAssignment : UInt64 := 64
  maxProvenanceRecords : UInt64 := 8192
  maxCanonicalBytes : UInt64 := 33554432
  maxExportBytes : UInt64 := 33554432
  maxTextBytes : UInt64 := 4096
  maxJsonDepth : UInt64 := 32
  maxRecordBytes : UInt64 := 4194304
  maxJournalBytes : UInt64 := 67108864
  maxSnapshotBytes : UInt64 := 67108864
  maxStoreBytes : UInt64 := 268435456
  maxCompactionChain : UInt64 := 1024
  maxWorkers : UInt64 := 8
  maxQueueDepth : UInt64 := 256
  maxPendingRequests : UInt64 := 1024
  maxIdempotencyEntries : UInt64 := 8192
  maxFrameBytes : UInt64 := 1048576
  maxConnections : UInt64 := 64
  maxRequestBytes : UInt64 := 524288
  maxReassignmentsPerScope : UInt64 := 16
  maxReassignmentWindowMicros : UInt64 := 86400000000
  maxExplanationBytes : UInt64 := 1048576
  deriving DecidableEq, Repr

namespace Bounds

/-- `refuse`, `src/bounds.cpp:7-9`. -/
def refuse (field why : String) : Error := ⟨.invalidConfiguration, field ++ ": " ++ why⟩

/-- `validate_bounds`, `src/bounds.cpp:20-118`. -/
def validate (b : Bounds) : Result Unit := do
  require (b.maxHosts ≠ 0 ∧ b.maxDevices ≠ 0 ∧ b.maxFunctions ≠ 0 ∧ b.maxScopes ≠ 0 ∧
      b.maxAssignments ≠ 0)
    (refuse "state ceilings" "must be greater than zero")
  require (b.maxAssignments ≤ 100000000)
    (refuse "max_assignments" "exceeds the supported ceiling")
  require (1024 ≤ b.maxCanonicalBytes)
    (refuse "max_canonical_bytes" "must be at least 1024")
  require (b.maxTextBytes ≠ 0 ∧ b.maxTextBytes ≤ b.maxCanonicalBytes)
    (refuse "max_text_bytes" "must be non-zero and no larger than max_canonical_bytes")
  require (b.maxJsonDepth ≠ 0 ∧ b.maxJsonDepth ≤ 256)
    (refuse "max_json_depth" "must be between 1 and 256")
  require (b.maxCanonicalBytes ≤ b.maxExportBytes)
    (refuse "max_export_bytes" "must be at least max_canonical_bytes")
  require (256 ≤ b.maxRecordBytes)
    (refuse "max_record_bytes" "must be at least 256")
  require (b.maxRecordBytes ≤ b.maxJournalBytes)
    (refuse "max_journal_bytes" "must be at least max_record_bytes")
  require (b.maxRecordBytes ≤ b.maxSnapshotBytes)
    (refuse "max_snapshot_bytes" "must be at least max_record_bytes")
  require (b.maxSnapshotBytes ≤ b.maxStoreBytes)
    (refuse "max_store_bytes" "must be at least max_snapshot_bytes")
  require (b.maxCompactionChain ≠ 0) (refuse "max_compaction_chain" "must be greater than zero")
  require (b.maxWorkers ≠ 0 ∧ b.maxWorkers ≤ 1024)
    (refuse "max_workers" "must be between 1 and 1024")
  require (b.maxQueueDepth ≠ 0 ∧ b.maxQueueDepth ≤ 1000000)
    (refuse "max_queue_depth" "must be between 1 and 1000000")
  require (b.maxPendingRequests ≠ 0)
    (refuse "max_pending_requests" "must be greater than zero")
  require (b.maxIdempotencyEntries ≠ 0)
    (refuse "max_idempotency_entries" "must be greater than zero")
  require (64 ≤ b.maxFrameBytes ∧ b.maxFrameBytes ≤ 1073741824)
    (refuse "max_frame_bytes" "must be between 64 and 1 GiB")
  require (b.maxRequestBytes ≠ 0 ∧ b.maxRequestBytes ≤ b.maxFrameBytes)
    (refuse "max_request_bytes" "must be non-zero and no larger than max_frame_bytes")
  require (b.maxConnections ≠ 0 ∧ b.maxConnections ≤ 4096)
    (refuse "max_connections" "must be between 1 and 4096")
  require (b.maxSemanticsPerRequirement ≠ 0 ∧ b.maxSemanticsPerRequirement ≤ 64)
    (refuse "max_semantics_per_requirement" "must be between 1 and 64")
  require (b.maxReasonsPerExplanation ≠ 0 ∧ b.maxReasonsPerExplanation ≤ 256)
    (refuse "max_reasons_per_explanation" "must be between 1 and 256")
  require (b.maxReasonDetailBytes ≠ 0 ∧ b.maxReasonDetailBytes ≤ 65536)
    (refuse "max_reason_detail_bytes" "must be between 1 and 65536")
  require (b.maxCandidatesPerPlan ≠ 0 ∧ b.maxCandidatesReported ≠ 0)
    (refuse "candidate bounds" "must be greater than zero")
  require (b.maxCandidatesReported ≤ b.maxCandidatesPerPlan)
    (refuse "max_candidates_reported" "must not exceed max_candidates_per_plan")
  require (b.maxHistoryPerAssignment ≠ 0 ∧ b.maxEffectsPerAssignment ≠ 0)
    (refuse "history bounds" "must be greater than zero")
  require (b.maxProvenanceRecords ≠ 0)
    (refuse "max_provenance_records" "must be greater than zero")
  require (b.maxDependenciesPerRequest ≠ 0)
    (refuse "max_dependencies_per_request" "must be greater than zero")
  require (b.maxReassignmentsPerScope ≠ 0)
    (refuse "max_reassignments_per_scope" "must be greater than zero")
  require (b.maxReassignmentWindowMicros ≠ 0)
    (refuse "max_reassignment_window_micros" "must be greater than zero")
  require (1024 ≤ b.maxExplanationBytes)
    (refuse "max_explanation_bytes" "must be at least 1024")

end Bounds

end OffloadFabric
