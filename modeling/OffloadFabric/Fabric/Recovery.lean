import OffloadFabric.Fabric.Revalidate

/-!
# Recovery, start and shutdown

`apply_record` of `src/fabric.cpp:1818-2010` and the life cycle of the runtime
(`src/fabric.cpp:2265-2275,2592-2808`): a start rebuilds the state from the snapshot and the
records, commits a new epoch, and suspends whatever claimed authority before.
-/

namespace OffloadFabric

open Lib Lib.Fallible FabricM Wire

namespace FabricState

/-- A program over the state alone, as replay runs. -/
abbrev Replay := Fallible FabricState Error

/-- The value of a payload under the reader of `apply_record`, `src/fabric.cpp:1819`. -/
def readPayload {α : Type} (b : Bounds) (d : Lib.Coder Nat Error α) (payload : Bytes) :
    Replay α :=
  liftExcept (Reader.decode d b.maxTextBytes.toNat payload)

/-- The assignment cases of `apply_record`, `src/fabric.cpp:1927-1970`. -/
def replayAssignment (b : Bounds) (r : AssignmentRecord) (id : RequestId) (fingerprint : Digest)
    (atTime : Micros) : Replay Unit := do
  modify (·.insertAssignment r)
  if id ≠ .empty then
    let response ← liftExcept ((encAssignment r).encode b.maxRecordBytes.toNat)
    modify (·.recordIdempotency b id ⟨fingerprint, .ok, response, atTime⟩)

/-- The grant of a replayed withdrawal, `src/fabric.cpp:1908-1911`. -/
def withdrawn (s : FabricState) (id : AuthorityId) : FabricState :=
  { s with
    authority := match s.authority.find? id with
      | some g => s.authority.insert { g with revoked := true }
      | none => s.authority }

/-- The withdrawal case of `apply_record`, `src/fabric.cpp:1903-1925`. -/
def replayWithdrawal (b : Bounds) (w : RecordedWithdrawal) : Replay Unit := do
  modify (·.withdrawn w.authority)
  if w.requestId ≠ .empty then
    match (encErrorEnvelope b ⟨w.reason, "authority withdrawal replayed"⟩).encode 64 with
    | .ok response =>
        modify (·.recordIdempotency b w.requestId
          ⟨w.requestFingerprint, w.reason, response, w.atTime⟩)
    | .error _ => pure ()

/-- `apply_record`, `src/fabric.cpp:1818-2010`. -/
def applyRecord (b : Bounds) (type : RecordType) (payload : Bytes) : Replay Unit := do
  match type with
  | .epochStarted =>
      let epoch ← readPayload b decEpoch payload
      modify fun s ↦ { s with epoch, epochCounter := max s.epochCounter epoch.counter }
  | .functionRegistered =>
      let f ← readPayload b (decFunction b) payload
      modify fun s ↦ { s with functions := s.functions.insert f }
  | .topologyIngested =>
      let t ← readPayload b (decTopology b) payload
      modify fun s ↦ { s.markSource t.provenance.source .topology t.provenance.sequence
        (sha256 payload) with topology := some t }
  | .capabilityIngested =>
      let report ← readPayload b (decCapabilityReport b) payload
      modify fun s ↦ { s.markSource report.provenance.source .capability
        report.provenance.sequence (sha256 payload) with
          capabilities := report.records.foldl Table.insert s.capabilities }
  | .policyIngested =>
      let p ← readPayload b (decPolicy b) payload
      modify fun s ↦ { s.markSource p.provenance.source .policy p.provenance.sequence
        (sha256 payload) with policy := some p }
  | .observationsIngested =>
      let report ← readPayload b (decObservationReport b) payload
      modify fun s ↦ { s.markSource report.provenance.source .observation
        report.provenance.sequence (sha256 payload) with
          observations := report.devices.foldl Table.insert s.observations }
  | .authorityGranted =>
      let g ← readPayload b decAuthority payload
      modify fun s ↦ { s.markSource g.provenance.source .authority g.provenance.sequence
        (sha256 payload) with authority := s.authority.insert g }
  | .authorityWithdrawn =>
      let w ← readPayload b decRecordedWithdrawal payload
      replayWithdrawal b w
  | .assignmentCreated | .assignmentTransitioned =>
      let v ← readPayload b (decRecordedAssignment b) payload
      replayAssignment b v.record v.requestId v.requestFingerprint v.record.updatedAt
  | .effectRecorded =>
      let v ← readPayload b (decRecordedEffect b) payload
      replayAssignment b v.record v.requestId v.requestFingerprint v.report.observedAt
  | .reassignmentRecorded =>
      let v ← readPayload b decReassignment payload
      modify fun s ↦ { s with
        reassignments := s.reassignments.insert v.1 ((s.reassignments[v.1]?).getD [] ++ [v.2]) }
  | .requestRecorded =>
      let v ← readPayload b (decRecordedRequest b) payload
      modify (·.recordIdempotency b v.requestId
        ⟨v.requestFingerprint, v.outcome, v.response, v.atTime⟩)
  | .scopeReleased | .snapshotBase | .storeSealed => pure ()

/-- The visits of `replay` in order, `src/fabric.cpp:2672-2688`. -/
def replay (b : Bounds) : List (RecordType × Bytes) → Replay Unit
  | [] => pure ()
  | record :: records => do
      applyRecord b record.1 record.2
      replay b records

/-- `apply_recovery_invariants`, `src/fabric.cpp:2265-2273`. -/
def applyRecoveryInvariants (s : FabricState) : FabricState :=
  { s with
    sources := s.sources.map fun _ entry ↦ { entry with restartFloor := entry.lastSequence }
    observations := .empty
    nextFenceSequence := 0 }

/-- The epoch of the next start, `src/fabric.cpp:2706-2712`. -/
def nextEpoch (s : FabricState) : Result UInt64 :=
  if 0 < s.epochCounter then
    match checkedAdd s.epochCounter 1 with
    | some counter => .ok counter
    | none => .error ⟨.arithmeticOverflow, "coordinator epoch exhausted"⟩
  else .ok 1

/-- The state in its new epoch, `src/fabric.cpp:2713-2716`. -/
def enterEpoch (s : FabricState) (counter : UInt64) (boot : BootId) : FabricState :=
  { s with
    previousEpochCounter := s.epochCounter
    epochCounter := counter
    epoch := ⟨counter, boot⟩ }

end FabricState

open FabricState

namespace Fabric

/-- The state inside a snapshot envelope, `src/fabric.cpp:2633-2669`. -/
def openSnapshot (b : Bounds) (envelope : Bytes) : Result FabricState := do
  let limit := b.maxTextBytes.toNat
  let (payload, digest, atEnd) ← Reader.decode (do
    let payload ← Reader.takeBytes b.maxSnapshotBytes.toNat
    let digest ← Reader.digest
    let atEnd ← Reader.atEnd
    return (payload, digest, atEnd)) limit envelope
  require (atEnd = true) ⟨.storeCorrupt, "snapshot envelope carries trailing bytes"⟩
  require (sha256 payload = digest)
    ⟨.integrityFailure, "snapshot payload integrity check failed"⟩
  (decState b).decode limit payload

/-- The snapshot and the records of a log, `src/fabric.cpp:2633-2694`. -/
def recover (b : Bounds) (log : Log) : Replay Unit := do
  match log.snapshot with
  | some envelope => do
      let s ← liftExcept (openSnapshot b envelope)
      set s
  | none => pure ()
  replay b log.records

/-- Run a replay on the state of the runtime. -/
def onState (x : Replay Unit) : FabricM Unit := do
  let m ← get
  match x.exec m.state with
  | (.ok _, state) => set { m with state }
  | (.error e, state) =>
      set { m with state }
      throw e

/-- The visit of one assignment by a start, `src/fabric.cpp:2737-2755`. -/
def suspendForRestart (c : FabricConfig) (now : Micros) (id : AssignmentId) : FabricM Unit := do
  let s ← getState
  match s.assignments.find? id with
  | none => return ()
  | some r =>
      if r.state = .suspended then return ()
      else
        storeAssignment c (r.enter c.bounds .suspended .restartAuthorityReset now) .empty .zero
          .assignmentTransitioned now

/-- The suspension loop of a start, `src/fabric.cpp:2736-2760`. -/
def suspendAll (c : FabricConfig) (now : Micros) : List AssignmentId → FabricM Unit
  | [] => pure ()
  | id :: ids => do
      suspendForRestart c now id
      suspendAll c now ids

/-- The recovery of the state from the store, `src/fabric.cpp:2633-2696`. -/
def recoverState (c : FabricConfig) : FabricM Unit := do
  let m ← get
  onState (recover c.bounds m.log)
  modifyState rebuildIndexes

/-- The conservative restart, `src/fabric.cpp:2698-2768`. -/
def restart (c : FabricConfig) (boot : BootId) (now : Micros) : FabricM Unit := do
  let s ← getState
  let counter ← liftExcept s.nextEpoch
  modifyState (·.enterEpoch counter boot)
  let payload ← liftExcept ((encEpoch ⟨counter, boot⟩).encode 64)
  tryCatch (commit c .epochStarted payload) fun e ↦
    throw ⟨e.code, "coordinator epoch could not be committed"⟩
  modifyState applyRecoveryInvariants
  let s ← getState
  suspendAll c now s.liveIds
  modify fun m ↦ { m with running := true, recoveryAccepted := c.autoAcceptRecovery }

/-- `Fabric::start`, `src/fabric.cpp:2592-2768`, with the boot identity configured or
generated. -/
def start (c : FabricConfig) (boot : BootId) (now : Micros) : FabricM Unit := do
  let m ← get
  check (m.running = false) ⟨.alreadyExists, "runtime is already started"⟩
  modify fun m ↦ { m with shuttingDown := false }
  liftExcept c.bounds.validate
  if c.hasStore then
    onLog (Log.reopen c.bounds)
    modify fun m ↦ { m with storeOpen := true }
    recoverState c
    restart c boot now
  else
    modify fun m ↦ { m with
      state := { m.state with epochCounter := 1, epoch := ⟨1, boot⟩ }
      running := true
      recoveryAccepted := true }

/-- `Fabric::shutdown`, `src/fabric.cpp:2770-2798`; a flush changes nothing that is modelled. -/
def shutdown (c : FabricConfig) : FabricM Unit := do
  let m ← get
  modify fun m ↦ { m with shuttingDown := true }
  if m.shuttingDown = false ∧ m.running = true then
    if m.storeOpen then
      modify fun m ↦ { m with storeOpen := false, running := false }
      onLog (Log.append c.bounds .storeSealed (le 8 m.state.epoch.counter.toNat))
    else
      modify fun m ↦ { m with running := false }

/-- `Fabric::accept_recovery`, `src/fabric.cpp:2800-2808`. -/
def acceptRecovery : FabricM Unit := do
  let m ← get
  check (m.running = true) ⟨.shuttingDown, "runtime is not running"⟩
  modify fun m ↦ { m with recoveryAccepted := true }

/-- `Fabric::compact`, `src/fabric.cpp:4318-4332`. -/
def compact (c : FabricConfig) : FabricM Unit := do
  let m ← get
  check (m.running = true) ⟨.shuttingDown, "runtime is not running"⟩
  compactLocked c

/-- The loss of the process: a new one finds only the log. -/
def crash : FabricM Unit :=
  modify fun m ↦ { log := m.log, issued := m.issued }

end Fabric

end OffloadFabric
