import OffloadFabric.Fabric.Placement
import OffloadFabric.Fabric.Payload
import OffloadFabric.Journal.Log

/-!
# The runtime and its commits

`Fabric::Impl` of `src/fabric.cpp:1409-1816`: the in-memory state beside its durable log, the
commit of a record, the store-then-apply of an assignment and the recording of a refusal.
Statistics, the recovery report and the crash hooks decide nothing and are left out.
-/

namespace OffloadFabric

open Lib Lib.Fallible Wire

/-- `FabricConfig`, `include/nof/fabric.hpp:62-85`: what the operations read of it. A runtime
without a store keeps nothing durable. -/
structure FabricConfig where
  bounds : Bounds := {}
  hasStore : Bool := true
  autoAcceptRecovery : Bool := true

/-- What the runtime issues, `src/fabric.cpp:103-140`. -/
inductive Issued where
  | assignment (id : AssignmentId)
  | lease (id : LeaseId)
  | attempt (id : AttemptId)
  | fence (token : FencingToken)
  deriving DecidableEq

/-- `Fabric::Impl`, `src/fabric.cpp:1409-1424`, with the log its store works on and, for the
record only, everything issued so far in order; no operation reads it. -/
structure Impl where
  state : FabricState := {}
  log : Log := {}
  issued : List Issued := []
  storeOpen : Bool := false
  running : Bool := false
  recoveryAccepted : Bool := true
  shuttingDown : Bool := false

/-- A program over the runtime. -/
abbrev FabricM := Fallible Impl Error

/-- The clock of one operation: the value of its successive readings. -/
abbrev ClockReadings := Nat → Micros

namespace FabricM

/-- The current state. -/
def getState : FabricM FabricState := do
  let m ← get
  return m.state

/-- Change the state only. -/
def modifyState (f : FabricState → FabricState) : FabricM Unit :=
  modify fun m ↦ { m with state := f m.state }

/-- Take an identifier or a token from its counter. -/
def issue {α : Type} (f : FabricState → Result (α × FabricState)) (tag : α → Issued) :
    FabricM α := do
  let m ← get
  match f m.state with
  | .ok (a, s) =>
      set { m with state := s, issued := m.issued ++ [tag a] }
      return a
  | .error e => throw e

/-- Run a call of the durable log. -/
def onLog {α : Type} (x : Fallible Log Error α) : FabricM α := do
  let m ← get
  match x.exec m.log with
  | (.ok a, log) =>
      set { m with log }
      return a
  | (.error e, log) =>
      set { m with log }
      throw e

end FabricM

open FabricM

namespace Fabric

/-- The snapshot envelope of `compact_locked`, `src/fabric.cpp:1451-1468`. -/
def snapshotEnvelope (b : Bounds) (s : FabricState) : Result Bytes := do
  let limit := if 0 < b.maxSnapshotBytes then b.maxSnapshotBytes else b.maxCanonicalBytes
  let payload ← (encState s).encode limit.toNat
  let envelopeLimit := UInt64.ofNat payload.length + 64 + b.maxCanonicalBytes
  let envelope ← Writer.encode (do Writer.text payload; Writer.digest (sha256 payload))
    envelopeLimit.toNat
  require (envelope.length ≤ b.maxSnapshotBytes.toNat)
    ⟨.oversizedInput, "snapshot exceeds the configured bound"⟩
  return envelope

/-- `compact_locked`, `src/fabric.cpp:1447-1478`. -/
def compactLocked (c : FabricConfig) : FabricM Unit := do
  let m ← get
  if m.storeOpen then
    let envelope ← liftExcept (snapshotEnvelope c.bounds m.state)
    onLog (Log.compact c.bounds envelope)

/-- `commit`, `src/fabric.cpp:1480-1502`. -/
def commit (c : FabricConfig) (type : RecordType) (payload : Bytes) : FabricM Unit := do
  let m ← get
  if m.storeOpen then
    if c.bounds.maxJournalBytes.toNat < m.log.bytes then
      compactLocked c
    onLog (Log.append c.bounds type payload)

/-- `record_idempotency` for an assignment answer, `src/fabric.cpp:1746-1753`. -/
def answer (c : FabricConfig) (id : RequestId) (fingerprint : Digest) (r : AssignmentRecord)
    (now : Micros) : FabricM Unit := do
  if id ≠ .empty then
    let response ← liftExcept ((encAssignment r).encode c.bounds.maxRecordBytes.toNat)
    modifyState (·.recordIdempotency c.bounds id ⟨fingerprint, .ok, response, now⟩)

/-- `store_assignment`, `src/fabric.cpp:1729-1756`: the durable record is written before the
in-memory state moves. -/
def storeAssignment (c : FabricConfig) (r : AssignmentRecord) (id : RequestId)
    (fingerprint : Digest) (type : RecordType) (now : Micros) : FabricM Unit := do
  let payload ← liftExcept
    ((encRecordedAssignment ⟨r, id, fingerprint⟩).encode c.bounds.maxRecordBytes.toNat)
  commit c type payload
  modifyState (·.insertAssignment r)
  answer c id fingerprint r now

/-- `store_effect`, `src/fabric.cpp:1790-1816`. -/
def storeEffect (c : FabricConfig) (r : AssignmentRecord) (report : EffectReport)
    (id : RequestId) (fingerprint : Digest) (now : Micros) : FabricM Unit := do
  let payload ← liftExcept
    ((encRecordedEffect ⟨report, r, id, fingerprint⟩).encode c.bounds.maxRecordBytes.toNat)
  commit c .effectRecorded payload
  modifyState (·.insertAssignment r)
  answer c id fingerprint r now

/-- `record_refusal`, `src/fabric.cpp:1599-1626`: a duplicate of a refused request is answered
with the same refusal. -/
def recordRefusal (c : FabricConfig) (id : RequestId) (fingerprint : Digest) (e : Error)
    (now : Micros) : FabricM Unit := do
  if id ≠ .empty then
    let response ← liftExcept ((encErrorEnvelope c.bounds e).encode
      (c.bounds.maxReasonDetailBytes + 64).toNat)
    let payload ← liftExcept ((encRecordedRequest ⟨id, fingerprint, e.code, response, now⟩).encode
      c.bounds.maxRecordBytes.toNat)
    commit c .requestRecorded payload
    modifyState (·.recordIdempotency c.bounds id ⟨fingerprint, e.code, response, now⟩)

/-- `note_reassignment`, `src/fabric.cpp:2167-2192`. -/
def noteReassignment (c : FabricConfig) (k : ExclusivityKey) (now : Micros) : FabricM Unit := do
  modifyState (·.pushReassignment c.bounds k now)
  let payload ← liftExcept ((encReassignment (k, now)).encode 64)
  commit c .reassignmentRecorded payload

/-- `replay_cached_assignment`, `src/fabric.cpp:3310-3332`: the answer of a recorded request,
decoded under default bounds. -/
def replayCachedAssignment (entry : IdempotencyEntry) : Result AssignmentRecord :=
  if entry.outcome ≠ .ok then
    match decErrorEnvelope.decode 4096 entry.response with
    | .ok e => .error e
    | .error e => .error e
  else
    let b : Bounds := {}
    (decAssignment b).decode b.maxTextBytes.toNat entry.response

/-- The idempotency lookup every intent operation starts with, `src/fabric.cpp:3626-3641`: the
answer to a request identifier already recorded, if it is. -/
def cachedAnswer (s : FabricState) (id : RequestId) (fingerprint : Digest) (detail : String) :
    Option (Result AssignmentRecord) :=
  (s.findIdempotency id).map fun entry ↦
    if entry.requestFingerprint = fingerprint then replayCachedAssignment entry
    else .error ⟨.duplicateDelivery, detail⟩

/-- The checks every mutating operation starts with, `src/fabric.cpp:3697-3702`. -/
def checkAccepting : FabricM Unit := do
  let m ← get
  check (m.running = true) ⟨.shuttingDown, "runtime is not running"⟩
  check (m.recoveryAccepted = true)
    ⟨.recoveryRequired, "recovery classification has not been accepted"⟩

end Fabric

end OffloadFabric
