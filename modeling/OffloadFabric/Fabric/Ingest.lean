import OffloadFabric.Fabric.Revalidate

/-!
# Evidence ingestion

`src/fabric.cpp:1504-1528,2836-3376`: every kind of evidence is validated, checked against what
its source already delivered, committed, and only then applied. Evidence that assignments are
valid against is followed by a revalidation.
-/

namespace OffloadFabric

open Lib Lib.Fallible FabricM Wire

/-- A delivery the state accepts: its record, and the state once it is recorded. -/
structure Delivery where
  type : RecordType
  payload : Writer
  next : FabricState

namespace FabricState

/-- `accept_evidence`, `src/fabric.cpp:1504-1528`: whether the evidence is a duplicate. -/
def acceptEvidence (s : FabricState) (source : SourceId) (domain : EvidenceDomain)
    (sequence : UInt64) (digest : Digest) : Result Bool := do
  require (source.isSet ∧ sequence ≠ 0)
    ⟨.provenanceMismatch, "evidence provenance is incomplete"⟩
  match s.sources[SourceKey.mk source domain]? with
  | none => return false
  | some existing =>
      if existing.seen then
        require (¬ sequence < existing.lastSequence)
          ⟨.sequenceRegression, "evidence sequence regressed for this source and domain"⟩
        if sequence = existing.lastSequence then
          require (existing.lastDigest = digest)
            ⟨.evidenceConflicting, "a different payload was delivered for an accepted sequence"⟩
          return true
        else return false
      else return false

/-- The generation rule of a snapshot kind of evidence, `src/fabric.cpp:2913-2929`. -/
def checkGeneration (current : Option (Gen × Digest)) (generation : Gen) (digest : Digest)
    (field : String) : Result Unit := do
  match current with
  | none => pure ()
  | some (existing, existingDigest) =>
      require (¬ generation < existing)
        ⟨.evidenceSuperseded, field ++ " generation is older than the current generation"⟩
      require (¬ (generation = existing ∧ existingDigest ≠ digest))
        ⟨.evidenceConflicting, field ++ " content changed without a generation increment"⟩

/-- The record loop of `ingest_capabilities`, `src/fabric.cpp:2976-2997`. -/
def checkCapabilityGeneration (s : FabricState) (r : CapabilityRecord) : Result Unit := do
  match s.lookupCapability r.device r.cls with
  | none => pure ()
  | some existing =>
      require (¬ r.generation < existing.generation)
        ⟨.evidenceSuperseded,
          "capability generation is older than the current generation for a device"⟩
      require (¬ (r.generation = existing.generation ∧
          capabilityRecordsConflict r existing = true))
        ⟨.evidenceConflicting, "capability content changed without a generation increment"⟩

/-- The device loop of `ingest_observations`, `src/fabric.cpp:3126-3140`. -/
def checkObservedDevice (t : TopologySnapshot) (o : DeviceObservation) : Result Unit := do
  let d ← present (t.findDevice o.device)
    ⟨.unknownIdentity, "observation references an unknown device: " ++ o.device.value.text⟩
  require (d.incarnation = o.incarnation)
    ⟨.incarnationMismatch,
      "observation incarnation differs from the current topology incarnation"⟩

/-- The functions with one more, `src/fabric.cpp:2836-2872`: nothing when it is registered. -/
def functionDelivery (s : FabricState) (b : Bounds) (f : FunctionDescriptor) :
    Result (Option Delivery) := do
  require (f.id ≠ .empty) ⟨.invalidIdentifier, "function identifier is empty"⟩
  require (f.required.count ≤ b.maxSemanticsPerRequirement.toNat)
    ⟨.limitExceeded, "function requirement exceeds the semantics bound"⟩
  require (s.functions.size < b.maxFunctions.toNat ∨ (s.functions.find? f.id).isSome)
    ⟨.limitExceeded, "function registry is full"⟩
  if s.functions.find? f.id = some f then return none
  return some ⟨.functionRegistered, encFunction f, { s with functions := s.functions.insert f }⟩

/-- The topology delivered, `src/fabric.cpp:2886-2938`. -/
def topologyDelivery (s : FabricState) (b : Bounds) (t : TopologySnapshot) :
    Result (Option Delivery) := do
  validateTopology t b
  let digest ← digestWith (encTopology t) b.maxCanonicalBytes.toNat
  let duplicate ←
    s.acceptEvidence t.provenance.source .topology t.provenance.sequence digest
  if duplicate then return none
  checkGeneration (s.topology.map fun current ↦ (current.generation, s.topologyDigest))
    t.generation digest "topology"
  return some ⟨.topologyIngested, encTopology t,
    { s with topology := some t, topologyDigest := digest }.markSource t.provenance.source
      .topology t.provenance.sequence digest⟩

/-- The capabilities delivered, `src/fabric.cpp:2956-3017`. -/
def capabilityDelivery (s : FabricState) (b : Bounds) (report : CapabilityReport) :
    Result (Option Delivery) := do
  validateCapabilityReport report b
  let digest ← digestWith (encCapabilityReport report) b.maxCanonicalBytes.toNat
  let duplicate ← s.acceptEvidence report.provenance.source .capability
    report.provenance.sequence digest
  if duplicate then return none
  report.records.forM s.checkCapabilityGeneration
  return some ⟨.capabilityIngested, encCapabilityReport report,
    { s with capabilities := report.records.foldl Table.insert s.capabilities }.markSource
      report.provenance.source .capability report.provenance.sequence digest⟩

/-- The policy delivered, `src/fabric.cpp:3030-3096`. -/
def policyDelivery (s : FabricState) (b : Bounds) (p : PolicySnapshot) :
    Result (Option Delivery) := do
  validatePolicySnapshot p b
  let digest ← digestWith (encPolicy p) b.maxCanonicalBytes.toNat
  let duplicate ← s.acceptEvidence p.provenance.source .policy p.provenance.sequence digest
  if duplicate then return none
  checkGeneration (s.policy.map fun current ↦ (current.generation, s.policyDigest))
    p.generation digest "policy"
  return some ⟨.policyIngested, encPolicy p,
    { s with policy := some p, policyDigest := digest }.markSource p.provenance.source .policy
      p.provenance.sequence digest⟩

/-- The observations delivered, `src/fabric.cpp:3112-3176`. -/
def observationDelivery (s : FabricState) (b : Bounds) (report : ObservationReport) :
    Result (Option Delivery) := do
  validateObservationReport report b
  let t ← present s.topology ⟨.evidenceMissing, "observations require a topology"⟩
  require (report.topologyGeneration = t.generation)
    ⟨.topologyStale, "observation report targets a different topology generation"⟩
  report.devices.forM (checkObservedDevice t)
  let digest ← digestWith (encObservationReport report) b.maxCanonicalBytes.toNat
  let duplicate ← s.acceptEvidence report.provenance.source .observation
    report.provenance.sequence digest
  if duplicate then return none
  return some ⟨.observationsIngested, encObservationReport report,
    { s with observations := report.devices.foldl Table.insert s.observations }.markSource
      report.provenance.source .observation report.provenance.sequence digest⟩

/-- The grant delivered, `src/fabric.cpp:3194-3255`. -/
def grantDelivery (s : FabricState) (b : Bounds) (g : AuthorityGrant) :
    Result (Option Delivery) := do
  validateAuthorityGrant g b
  let p ← present s.policy ⟨.policyStale, "authority requires a current policy"⟩
  require (g.policyGeneration = p.generation)
    ⟨.policyStale, "authority is bound to a different policy generation"⟩
  let digest ← digestWith (encAuthority g) b.maxCanonicalBytes.toNat
  let duplicate ←
    s.acceptEvidence g.provenance.source .authority g.provenance.sequence digest
  if duplicate then return none
  match s.authority.find? g.id with
  | some existing =>
      require (existing = g)
        ⟨.alreadyExists, "an authority grant with this identifier already exists"⟩
      return none
  | none =>
      require (s.authority.size < b.maxAuthorityGrants.toNat)
        ⟨.limitExceeded, "authority grant store is full"⟩
      return some ⟨.authorityGranted, encAuthority g,
        { s with authority := s.authority.insert g }.markSource g.provenance.source .authority
          g.provenance.sequence digest⟩

/-- The withdrawal delivered, `src/fabric.cpp:3266-3291`. -/
def withdrawalDelivery (s : FabricState) (id : AuthorityId) (reason : ReasonCode)
    (now : Micros) : Result (Option Delivery) := do
  require (id ≠ .empty) ⟨.invalidIdentifier, "authority identifier is empty"⟩
  let g ← present (s.authority.find? id) ⟨.notFound, "authority grant does not exist"⟩
  if g.revoked then return none
  return some ⟨.authorityWithdrawn,
    encRecordedWithdrawal { authority := id, reason, atTime := now },
    { s with authority := s.authority.insert { g with revoked := true } }⟩

end FabricState

open FabricState

namespace Fabric

/-- The record of a delivery is durable before the state moves, `src/fabric.cpp:2923-2938`. -/
def deliver (c : FabricConfig) (d : Delivery) : FabricM Unit := do
  let payload ← liftExcept (d.payload.encode c.bounds.maxRecordBytes.toNat)
  commit c d.type payload
  modifyState fun _ ↦ d.next

/-- A delivery that no assignment has to be checked against. -/
def register (c : FabricConfig) (accept : FabricState → Result (Option Delivery)) :
    FabricM Unit := do
  let s ← getState
  match ← liftExcept (accept s) with
  | none => return ()
  | some d => deliver c d

/-- A delivery that every assignment is then checked against. -/
def ingest (c : FabricConfig) (accept : FabricState → Result (Option Delivery)) (now : Micros) :
    FabricM Unit := do
  let s ← getState
  match ← liftExcept (accept s) with
  | none => return ()
  | some d => do
      deliver c d
      revalidateNow c now

/-- `Fabric::register_function`, `src/fabric.cpp:2829-2873`. -/
def registerFunction (c : FabricConfig) (f : FunctionDescriptor) : FabricM Unit := do
  checkAccepting
  register c (·.functionDelivery c.bounds f)

/-- `Fabric::ingest_topology`, `src/fabric.cpp:2875-2945`. -/
def ingestTopology (c : FabricConfig) (t : TopologySnapshot) (now : Micros) : FabricM Unit := do
  checkAccepting
  ingest c (·.topologyDelivery c.bounds t) now

/-- `Fabric::ingest_capabilities`, `src/fabric.cpp:2947-3022`. -/
def ingestCapabilities (c : FabricConfig) (report : CapabilityReport) (now : Micros) :
    FabricM Unit := do
  checkAccepting
  ingest c (·.capabilityDelivery c.bounds report) now

/-- `Fabric::ingest_policy`, `src/fabric.cpp:3031-3102`. -/
def ingestPolicy (c : FabricConfig) (p : PolicySnapshot) (now : Micros) : FabricM Unit := do
  checkAccepting
  ingest c (·.policyDelivery c.bounds p) now

/-- `Fabric::ingest_observations`, `src/fabric.cpp:3104-3181`. -/
def ingestObservations (c : FabricConfig) (report : ObservationReport) (now : Micros) :
    FabricM Unit := do
  checkAccepting
  ingest c (·.observationDelivery c.bounds report) now

/-- `Fabric::grant_authority`, `src/fabric.cpp:3183-3258`. -/
def grantAuthority (c : FabricConfig) (g : AuthorityGrant) : FabricM Unit := do
  checkAccepting
  register c (·.grantDelivery c.bounds g)

/-- `Fabric::withdraw_authority`, `src/fabric.cpp:3260-3298`, which does not ask whether the
recovery was accepted. -/
def withdrawAuthority (c : FabricConfig) (id : AuthorityId) (reason : ReasonCode)
    (now : ClockReadings) : FabricM Unit := do
  let m ← get
  check (m.running = true) ⟨.shuttingDown, "runtime is not running"⟩
  ingest c (·.withdrawalDelivery id reason (now 0)) (now 1)

end Fabric

end OffloadFabric
