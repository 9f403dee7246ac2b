import OffloadFabric.Fabric.State
import OffloadFabric.Wire.Records

/-!
# Durable payloads

The journal payloads of `src/fabric.cpp:156-396` and the canonical state encoding of
`src/fabric.cpp:404-911`, which is the payload of a compaction snapshot.
-/

namespace OffloadFabric

open Lib Lib.Coder Wire

/-- `RecordedAssignment`, `src/fabric.cpp:156-160`. -/
structure RecordedAssignment where
  record : AssignmentRecord
  requestId : RequestId
  requestFingerprint : Digest

/-- `RecordedEffect`, `src/fabric.cpp:195-200`. -/
structure RecordedEffect where
  report : EffectReport
  record : AssignmentRecord
  requestId : RequestId
  requestFingerprint : Digest

/-- `RecordedWithdrawal`, `src/fabric.cpp:244-250`. -/
structure RecordedWithdrawal where
  authority : AuthorityId
  reason : ReasonCode
  atTime : Micros
  requestId : RequestId := .empty
  requestFingerprint : Digest := .zero

/-- `RecordedRequest`, `src/fabric.cpp:305-311`. -/
structure RecordedRequest where
  requestId : RequestId
  requestFingerprint : Digest
  outcome : ReasonCode
  response : Bytes
  atTime : Micros

namespace Wire

/-- `encode_recorded_assignment`, `src/fabric.cpp:162-173`. -/
def encRecordedAssignment (v : RecordedAssignment) : Writer := do
  encAssignment v.record
  Writer.token v.requestId
  Writer.digest v.requestFingerprint

/-- `decode_recorded_assignment`, `src/fabric.cpp:175-193`. -/
def decRecordedAssignment (b : Bounds) : Reader RecordedAssignment := do
  let record ← decAssignment b
  let requestId ← Reader.token
  let requestFingerprint ← Reader.digest
  pure ⟨record, requestId, requestFingerprint⟩

/-- `encode_recorded_effect`, `src/fabric.cpp:202-217`. -/
def encRecordedEffect (v : RecordedEffect) : Writer := do
  encEffectReport v.report
  encAssignment v.record
  Writer.token v.requestId
  Writer.digest v.requestFingerprint

/-- `decode_recorded_effect`, `src/fabric.cpp:219-242`. -/
def decRecordedEffect (b : Bounds) : Reader RecordedEffect := do
  let report ← decEffectReport
  let record ← decAssignment b
  let requestId ← Reader.token
  let requestFingerprint ← Reader.digest
  pure ⟨report, record, requestId, requestFingerprint⟩

/-- `encode_recorded_withdrawal`, `src/fabric.cpp:252-270`. -/
def encRecordedWithdrawal (v : RecordedWithdrawal) : Writer := do
  Writer.token v.authority
  Writer.reasonCode v.reason
  Writer.i64 v.atTime
  Writer.token v.requestId
  Writer.digest v.requestFingerprint

/-- `decode_recorded_withdrawal`, `src/fabric.cpp:272-303`. -/
def decRecordedWithdrawal : Reader RecordedWithdrawal := do
  let authority ← Reader.token
  let reason ← Reader.reasonCode "unknown reason code in withdrawal record"
  let atTime ← Reader.i64
  let requestId ← Reader.token
  let requestFingerprint ← Reader.digest
  pure ⟨authority, reason, atTime, requestId, requestFingerprint⟩

/-- `encode_recorded_request`, `src/fabric.cpp:313-331`. -/
def encRecordedRequest (v : RecordedRequest) : Writer := do
  Writer.token v.requestId
  Writer.digest v.requestFingerprint
  Writer.reasonCode v.outcome
  Writer.i64 v.atTime
  Writer.text v.response

/-- `decode_recorded_request`, `src/fabric.cpp:333-364`. -/
def decRecordedRequest (b : Bounds) : Reader RecordedRequest := do
  let requestId ← Reader.token
  let requestFingerprint ← Reader.digest
  let outcome ← Reader.reasonCode "unknown reason code in request record"
  let atTime ← Reader.i64
  let response ← Reader.takeBytes b.maxRecordBytes.toNat
  pure ⟨requestId, requestFingerprint, outcome, response, atTime⟩

/-- `encode_error_envelope`, `src/fabric.cpp:368-378`. -/
def encErrorEnvelope (b : Bounds) (e : Error) : Writer := do
  Writer.reasonCode e.code
  Writer.text ((ascii e.detail).take b.maxReasonDetailBytes.toNat)

/-- `decode_error_envelope`, `src/fabric.cpp:380-397`. -/
def decErrorEnvelope : Reader Error := do
  let code ← Reader.reasonCode "unknown reason code in error envelope"
  let detail ← Reader.text
  pure ⟨code, Bytes.text detail⟩

/-- A reassignment record, `src/fabric.cpp:2177-2190`. -/
def encReassignment (v : ExclusivityKey × Micros) : Writer := do
  Writer.token v.1.scope
  Writer.functionClass v.1.cls
  Writer.i64 v.2

/-- The reassignment case of `apply_record`, `src/fabric.cpp:1971-1994`. -/
def decReassignment : Reader (ExclusivityKey × Micros) := do
  let scope ← Reader.token
  let raw ← Reader.u16
  let atTime ← Reader.i64
  let cls ← Reader.known (FunctionClass.ofCode? raw) "record carries an unknown function class"
  pure (⟨scope, cls⟩, atTime)

/-! ## The canonical state encoding -/

/-- `read_count`, `src/fabric.cpp:609-618`. -/
def readCount (maxCount : Nat) : Reader Nat := do
  let raw ← Reader.u32
  if raw.toNat ≤ maxCount then pure raw.toNat
  else throw ⟨.limitExceeded, "state collection exceeds the configured bound"⟩

/-- A state collection: its size in thirty-two bits, then its entries, `src/fabric.cpp:424-432`. -/
def encEntries {α : Type} (e : α → Writer) (items : List α) : Writer := do
  Writer.u32 (UInt32.ofNat items.length)
  each e items

/-- A state collection of at most `maxCount` entries, `src/fabric.cpp:669-678`. -/
def decEntries {α : Type} (maxCount : Nat) (d : Reader α) : Reader (List α) := do
  let n ← readCount maxCount
  times n d

/-- A snapshot behind a presence flag, `src/fabric.cpp:433-442`. -/
def encOption {α : Type} (e : α → Writer) (v : Option α) : Writer :=
  match v with
  | none => Writer.boolean false
  | some a => do
      Writer.boolean true
      e a

/-- A snapshot behind a presence flag, `src/fabric.cpp:681-692`. -/
def decOption {α : Type} (d : Reader α) : Reader (Option α) := do
  let present ← Reader.boolean
  if present then some <$> d else pure none

/-- The scope registry loop, `src/fabric.cpp:505-515`. -/
def encScopeEntry (v : ScopeId × ScopeSpec) : Writer := do
  Writer.token v.1
  encScopeSpec v.2

/-- The scope registry loop, `src/fabric.cpp:771-781`. -/
def decScopeEntry : Reader (ScopeId × ScopeSpec) := do
  let scope ← Reader.token
  let spec ← decScopeSpec
  pure (scope, spec)

/-- The source loop, `src/fabric.cpp:519-544`. -/
def encSourceEntry (v : SourceKey × SourceState) : Writer := do
  Writer.token v.1.source
  Writer.enum8 v.1.domain
  Writer.u64 v.2.lastSequence
  Writer.u64 v.2.restartFloor
  Writer.digest v.2.lastDigest
  Writer.boolean v.2.seen

/-- The source loop, `src/fabric.cpp:787-825`. -/
def decSourceEntry : Reader (SourceKey × SourceState) := do
  let source ← Reader.token
  let raw ← Reader.u8
  let domain ← Reader.known (EvidenceDomain.ofCode? raw)
    "state carries an unknown evidence domain"
  let lastSequence ← Reader.u64
  let restartFloor ← Reader.u64
  let lastDigest ← Reader.digest
  let seen ← Reader.boolean
  pure (⟨source, domain⟩, ⟨lastSequence, lastDigest, restartFloor, seen⟩)

/-- The reassignment loop, `src/fabric.cpp:549-570`. -/
def encReassignmentEntry (v : ExclusivityKey × List Micros) : Writer := do
  Writer.token v.1.scope
  Writer.functionClass v.1.cls
  encEntries Writer.i64 v.2

/-- The reassignment loop, `src/fabric.cpp:830-859`. -/
def decReassignmentEntry (b : Bounds) : Reader (ExclusivityKey × List Micros) := do
  let scope ← Reader.token
  let raw ← Reader.u16
  let cls ← Reader.known (FunctionClass.ofCode? raw) "state carries an unknown function class"
  let stamps ← decEntries (b.maxReassignmentsPerScope * 64).toNat Reader.i64
  pure (⟨scope, cls⟩, stamps)

/-- The idempotency loop, `src/fabric.cpp:573-594`. -/
def encIdempotencyEntry (v : RequestId × IdempotencyEntry) : Writer := do
  Writer.token v.1
  Writer.digest v.2.requestFingerprint
  Writer.reasonCode v.2.outcome
  Writer.i64 v.2.atTime
  Writer.text v.2.response

/-- The idempotency loop, `src/fabric.cpp:865-905`. -/
def decIdempotencyEntry (b : Bounds) : Reader (RequestId × IdempotencyEntry) := do
  let id ← Reader.token
  let requestFingerprint ← Reader.digest
  let outcome ← Reader.reasonCode "state carries an unknown reason code"
  let atTime ← Reader.i64
  let response ← Reader.takeBytes b.maxRecordBytes.toNat
  pure (id, ⟨requestFingerprint, outcome, response, atTime⟩)

/-- `kCanonicalEncodingVersion`, `include/nof/version.hpp:26`. -/
def canonicalEncodingVersion : UInt16 := 1

/-- `encode_state`, `src/fabric.cpp:406-597`. -/
def encState (s : FabricState) : Writer := do
  Writer.u16 canonicalEncodingVersion
  encEpoch s.epoch
  Writer.u64 s.epochCounter
  Writer.u64 s.previousEpochCounter
  Writer.u64 s.nextAssignmentOrdinal
  Writer.u64 s.nextLease
  Writer.u64 s.nextAttempt
  Writer.u64 s.nextFenceSequence
  encEntries encFunction s.functions.values
  encOption encTopology s.topology
  Writer.digest s.topologyDigest
  encEntries encCapabilityRecord s.capabilities.values
  encOption encPolicy s.policy
  Writer.digest s.policyDigest
  encEntries encObservation s.observations.values
  encEntries encAuthority s.authority.values
  encEntries encAssignment s.assignments.values
  encEntries encScopeEntry s.scopeSpecs.toList
  encEntries encSourceEntry s.sources.toList
  encEntries encReassignmentEntry s.reassignments.toList
  encEntries encIdempotencyEntry s.idempotency.toList

/-- The map of a list of decoded entries, the first of each key, as `emplace` builds it,
`src/fabric.cpp:783`. -/
def emplaceAll {κ α : Type} [Ord κ] [Std.TransOrd κ] (entries : List (κ × α)) :
    Std.ExtTreeMap κ α :=
  entries.foldl (fun m e ↦ m.insertIfNew e.1 e.2) ∅

/-- The fields of `decode_state`, `src/fabric.cpp:622-907`. -/
def decStateFields (b : Bounds) : Reader FabricState := do
  let version ← Reader.u16
  if version ≠ canonicalEncodingVersion then
    throw ⟨.incompatibleSemantics, "state encoding version is not supported"⟩
  else
    let epoch ← decEpoch
    let epochCounter ← Reader.u64
    let previousEpochCounter ← Reader.u64
    let nextAssignmentOrdinal ← Reader.u64
    let nextLease ← Reader.u64
    let nextAttempt ← Reader.u64
    let nextFenceSequence ← Reader.u64
    let functions ← decEntries b.maxFunctions.toNat (decFunction b)
    let topology ← decOption (decTopology b)
    let topologyDigest ← Reader.digest
    let capabilities ← decEntries b.maxCapabilityRecords.toNat decCapabilityRecord
    let policy ← decOption (decPolicy b)
    let policyDigest ← Reader.digest
    let observations ← decEntries b.maxObservations.toNat decObservation
    let authority ← decEntries b.maxAuthorityGrants.toNat decAuthority
    let assignments ← decEntries b.maxAssignments.toNat (decAssignment b)
    let scopeSpecs ← decEntries b.maxScopes.toNat decScopeEntry
    let sources ← decEntries b.maxSources.toNat decSourceEntry
    let reassignments ← decEntries b.maxScopes.toNat (decReassignmentEntry b)
    let idempotency ← decEntries b.maxIdempotencyEntries.toNat (decIdempotencyEntry b)
    pure {
      epoch, epochCounter, previousEpochCounter, nextAssignmentOrdinal, nextLease, nextAttempt
      nextFenceSequence
      functions := .ofList functions
      topology, topologyDigest
      capabilities := .ofList capabilities
      policy, policyDigest
      observations := .ofList observations
      authority := .ofList authority
      assignments := .ofList assignments
      scopeSpecs := emplaceAll scopeSpecs
      sources := emplaceAll sources
      reassignments := emplaceAll reassignments
      idempotency := emplaceAll idempotency
      idempotencyOrder := idempotency.map Prod.fst }

/-- `decode_state`, `src/fabric.cpp:622-911`. -/
def decState (b : Bounds) : Reader FabricState := do
  let s ← decStateFields b
  let atEnd ← Reader.atEnd
  if atEnd then pure s
  else throw ⟨.malformedInput, "state encoding carries trailing bytes"⟩

end Wire

end OffloadFabric
