import OffloadFabric.Wire.Binary
import OffloadFabric.Model.Request

/-!
# Wire codecs of the domain records

The `enc_*` and `dec_*` helpers of `src/wire.cpp:142-966` and the public pairs built from
them. Encoders enforce nothing but their byte limit; decoders refuse texts and collections
beyond the configured bounds.
-/

namespace OffloadFabric.Wire

open Lib Lib.Coder

/-! ## Identities and quantities -/

/-- `enc_provenance`, `src/wire.cpp:142-145`. -/
def encProvenance (v : Provenance) : Writer := do
  Writer.token v.source
  Writer.u64 v.sequence

/-- `dec_provenance`, `src/wire.cpp:147-152`. -/
def decProvenance : Reader Provenance := do
  let source ← Reader.token
  let sequence ← Reader.u64
  pure ⟨source, sequence⟩

/-- `enc_freshness`, `src/wire.cpp:154-157`. -/
def encFreshness (v : Freshness) : Writer := do
  Writer.i64 v.observedAt
  Writer.i64 v.validUntil

/-- `dec_freshness`, `src/wire.cpp:159-164`. -/
def decFreshness : Reader Freshness := do
  let observedAt ← Reader.i64
  let validUntil ← Reader.i64
  pure ⟨observedAt, validUntil⟩

/-- `enc_incarnation`, `src/wire.cpp:166-169`. -/
def encIncarnation (v : IncarnationId) : Writer := do
  Writer.u64 v.generation
  Writer.token v.boot

/-- `dec_incarnation`, `src/wire.cpp:171-176`. -/
def decIncarnation : Reader IncarnationId := do
  let generation ← Reader.u64
  let boot ← Reader.token
  pure ⟨generation, boot⟩

/-- `enc_fence`, `src/wire.cpp:178-181`. -/
def encFence (v : FencingToken) : Writer := do
  Writer.u64 v.epoch
  Writer.u64 v.sequence

/-- `dec_fence`, `src/wire.cpp:183-188`. -/
def decFence : Reader FencingToken := do
  let epoch ← Reader.u64
  let sequence ← Reader.u64
  pure ⟨epoch, sequence⟩

/-- `enc_epoch`, `src/wire.cpp:190-193`. -/
def encEpoch (v : CoordinatorEpoch) : Writer := do
  Writer.u64 v.counter
  Writer.token v.boot

/-- `dec_epoch`, `src/wire.cpp:195-200`. -/
def decEpoch : Reader CoordinatorEpoch := do
  let counter ← Reader.u64
  let boot ← Reader.token
  pure ⟨counter, boot⟩

/-- `enc_binding`, `src/wire.cpp:202-208`. -/
def encBinding (v : GenerationBinding) : Writer := do
  Writer.u64 v.topology
  Writer.u64 v.capability
  Writer.u64 v.policy
  Writer.u64 v.assignment
  Writer.u64 v.schema

/-- `dec_binding`, `src/wire.cpp:210-218`. -/
def decBinding : Reader GenerationBinding := do
  let topology ← Reader.u64
  let capability ← Reader.u64
  let policy ← Reader.u64
  let assignment ← Reader.u64
  let schema ← Reader.u64
  pure ⟨topology, capability, policy, assignment, schema⟩

/-- `enc_demand`, `src/wire.cpp:220-226`. -/
def encDemand (v : DemandVector) : Writer := do
  Writer.u64 v.packetsPerSecond
  Writer.u64 v.bytesPerSecond
  Writer.u64 v.flows
  Writer.u64 v.queues
  Writer.u64 v.memory

/-- `dec_demand`, `src/wire.cpp:228-236`. -/
def decDemand : Reader DemandVector := do
  let packetsPerSecond ← Reader.u64
  let bytesPerSecond ← Reader.u64
  let flows ← Reader.u64
  let queues ← Reader.u64
  let memory ← Reader.u64
  pure ⟨packetsPerSecond, bytesPerSecond, flows, queues, memory⟩

/-- `enc_capacity`, `src/wire.cpp:238`. -/
def encCapacity (v : CapacityVector) : Writer := encDemand v.toDemandVector

/-- `dec_capacity`, `src/wire.cpp:240-249`. -/
def decCapacity : Reader CapacityVector := do
  let raw ← decDemand
  pure ⟨raw⟩

/-- `enc_version`, `src/wire.cpp:251-254`. -/
def encVersion (v : SemanticVersion) : Writer := do
  Writer.u16 v.major
  Writer.u16 v.minor

/-- `dec_version`, `src/wire.cpp:256-261`. -/
def decVersion : Reader SemanticVersion := do
  let major ← Reader.u16
  let minor ← Reader.u16
  pure ⟨major, minor⟩

/-- `enc_version_range`, `src/wire.cpp:263-266`. -/
def encVersionRange (v : VersionRange) : Writer := do
  encVersion v.minimum
  encVersion v.maximum

/-- `dec_version_range`, `src/wire.cpp:268-273`. -/
def decVersionRange : Reader VersionRange := do
  let minimum ← decVersion
  let maximum ← decVersion
  pure ⟨minimum, maximum⟩

/-- `decode_semantics`, `src/wire.cpp:1181-1193`: only known semantics are accepted. -/
def decSemantics : Reader SemanticsMask := do
  let v ← Reader.semantics
  if v.bits >>> semanticCount = 0 then pure v
  else throw ⟨.semanticsMismatch, "semantics mask carries unknown bits"⟩

/-- `enc_scope_spec`, `src/wire.cpp:275-280`. -/
def encScopeSpec (v : ScopeSpec) : Writer := do
  Writer.enum8 v.kind
  Writer.token v.domain
  Writer.token v.device
  Writer.text v.selector

/-- `dec_scope_spec`, `src/wire.cpp:282-290`. -/
def decScopeSpec : Reader ScopeSpec := do
  let kind ← Reader.enum8
  let domain ← Reader.token
  let device ← Reader.token
  let selector ← Reader.text
  pure ⟨kind, domain, device, selector⟩

/-! ## Collections -/

/-- A counted collection, the shape of every `enc_*_list`, `src/wire.cpp:292-297`. -/
def encList {α : Type} (e : α → Writer) (items : List α) : Writer := do
  Writer.count items.length
  each e items

/-- A counted collection of at most `maxCount`, the shape of every `dec_*_list`,
`src/wire.cpp:299-314`. -/
def decList {α : Type} (maxCount : Nat) (d : Reader α) : Reader (List α) := do
  let n ← Reader.count maxCount
  times n d

/-- `enc_labels`, `src/wire.cpp:292-297`. -/
def encLabels (labels : List Bytes) : Writer := encList Writer.text labels

/-- `dec_labels`, `src/wire.cpp:299-314`. -/
def decLabels (maxCount : Nat) : Reader (List Bytes) := decList maxCount Reader.label

/-- `enc_device_kind_list`, `src/wire.cpp:485-490`. -/
def encDeviceKindList (items : List DeviceKind) : Writer := encList Writer.enum8 items

/-- `dec_device_kind_list`, `src/wire.cpp:492-509`. -/
def decDeviceKindList (maxCount : Nat) : Reader (List DeviceKind) := decList maxCount Reader.enum8

/-! ## Topology -/

/-- `enc_host_record`, `src/wire.cpp:316-319`. -/
def encHostRecord (v : HostRecord) : Writer := do
  Writer.token v.id
  encLabels v.labels

/-- `dec_host_record`, `src/wire.cpp:321-326`. -/
def decHostRecord (b : Bounds) : Reader HostRecord := do
  let id ← Reader.token
  let labels ← decLabels (b.maxAntiAffinityEntries * 4).toNat
  pure ⟨id, labels⟩

/-- `enc_device_record`, `src/wire.cpp:328-336`. -/
def encDeviceRecord (v : DeviceRecord) : Writer := do
  Writer.token v.id
  Writer.token v.host
  Writer.enum8 v.kind
  encIncarnation v.incarnation
  encCapacity v.capacity
  encLabels v.labels
  Writer.boolean v.decommissioned

/-- `dec_device_record`, `src/wire.cpp:338-349`. -/
def decDeviceRecord (b : Bounds) : Reader DeviceRecord := do
  let id ← Reader.token
  let host ← Reader.token
  let kind ← Reader.enum8
  let incarnation ← decIncarnation
  let capacity ← decCapacity
  let labels ← decLabels (b.maxAntiAffinityEntries * 4).toNat
  let decommissioned ← Reader.boolean
  pure ⟨id, host, kind, incarnation, capacity, labels, decommissioned⟩

/-- The link loop of `encode_topology`, `src/wire.cpp:1311-1315`. -/
def encLink (v : LinkRecord) : Writer := do
  Writer.token v.a
  Writer.token v.b
  Writer.enum8 v.kind

/-- The link loop of `decode_topology`, `src/wire.cpp:1349-1358`. -/
def decLink : Reader LinkRecord := do
  let a ← Reader.token
  let b ← Reader.token
  let kind ← Reader.enum8
  pure ⟨a, b, kind⟩

/-- `encode_topology`, `src/wire.cpp:1298-1319`. -/
def encTopology (v : TopologySnapshot) : Writer := do
  Writer.u64 v.generation
  encProvenance v.provenance
  encFreshness v.freshness
  encList encHostRecord v.hosts
  encList encDeviceRecord v.devices
  encList encLink v.links

/-- `decode_topology`, `src/wire.cpp:1321-1365`. -/
def decTopology (b : Bounds) : Reader TopologySnapshot := do
  let generation ← Reader.u64
  let provenance ← decProvenance
  let freshness ← decFreshness
  let hosts ← decList b.maxHosts.toNat (decHostRecord b)
  let devices ← decList b.maxDevices.toNat (decDeviceRecord b)
  let links ← decList (b.maxDevices * 8).toNat decLink
  pure ⟨generation, provenance, freshness, hosts, devices, links⟩

/-! ## Functions and capabilities -/

/-- `enc_function`, `src/wire.cpp:535-541`. -/
def encFunction (v : FunctionDescriptor) : Writer := do
  Writer.token v.id
  Writer.functionClass v.cls
  Writer.semantics v.required
  encVersion v.requiredVersion
  Writer.boolean v.exclusiveByDefault

/-- `dec_function` and the check of `decode_function`, `src/wire.cpp:553-562,1373-1384`. -/
def decFunction (b : Bounds) : Reader FunctionDescriptor := do
  let id ← Reader.token
  let cls ← Reader.functionClass
  let required ← Reader.semantics
  let requiredVersion ← decVersion
  let exclusiveByDefault ← Reader.boolean
  if required.count ≤ b.maxSemanticsPerRequirement.toNat then
    pure ⟨id, cls, required, requiredVersion, exclusiveByDefault⟩
  else
    throw ⟨.limitExceeded, "function requirement exceeds the semantics bound"⟩

/-- `enc_capability_record`, `src/wire.cpp:554-568`. -/
def encCapabilityRecord (v : CapabilityRecord) : Writer := do
  Writer.token v.device
  encIncarnation v.incarnation
  Writer.functionClass v.cls
  Writer.semantics v.supported
  Writer.semantics v.unsupported
  Writer.semantics v.unknown
  encVersionRange v.versionRange
  encCapacity v.capacity
  Writer.u64 v.schema
  Writer.u64 v.generation
  encProvenance v.provenance
  encFreshness v.freshness
  Writer.boolean v.revoked

/-- `dec_capability_record`, `src/wire.cpp:570-587`. -/
def decCapabilityRecord : Reader CapabilityRecord := do
  let device ← Reader.token
  let incarnation ← decIncarnation
  let cls ← Reader.functionClass
  let supported ← Reader.semantics
  let unsupported ← Reader.semantics
  let unknown ← Reader.semantics
  let versionRange ← decVersionRange
  let capacity ← decCapacity
  let schema ← Reader.u64
  let generation ← Reader.u64
  let provenance ← decProvenance
  let freshness ← decFreshness
  let revoked ← Reader.boolean
  pure ⟨device, incarnation, cls, supported, unsupported, unknown, versionRange, capacity,
    schema, generation, provenance, freshness, revoked⟩

/-- `encode_capability_report`, `src/wire.cpp:1405-1416`. -/
def encCapabilityReport (v : CapabilityReport) : Writer := do
  encProvenance v.provenance
  encFreshness v.freshness
  encList encCapabilityRecord v.records

/-- `decode_capability_report`, `src/wire.cpp:1418-1438`. -/
def decCapabilityReport (b : Bounds) : Reader CapabilityReport := do
  let provenance ← decProvenance
  let freshness ← decFreshness
  let records ← decList b.maxCapabilityRecords.toNat decCapabilityRecord
  pure ⟨provenance, freshness, records⟩

/-! ## Policy, authority and observations -/

/-- `enc_policy_rule`, `src/wire.cpp:589-603`. -/
def encPolicyRule (v : PolicyRule) : Writer := do
  Writer.functionClass v.cls
  Writer.semantics v.required
  encDeviceKindList v.allowedKinds
  Writer.enum8 v.exclusiveKey
  Writer.boolean v.allowHostFallback
  Writer.boolean v.requireAuthority
  Writer.boolean v.requireFreshObservation
  Writer.boolean v.requireCapability
  Writer.u32 v.priority
  Writer.u64 v.maxReassignmentsPerScope
  Writer.u64 v.reassignmentWindowMicros
  Writer.u64 v.maxAssignmentsPerDevice
  encDemand v.reserve

/-- `dec_policy_rule`, `src/wire.cpp:605-634`; narrowing to `size_t` never refuses. -/
def decPolicyRule : Reader PolicyRule := do
  let cls ← Reader.functionClass
  let required ← Reader.semantics
  let allowedKinds ← decDeviceKindList 8
  let exclusiveKey ← Reader.enum8
  let allowHostFallback ← Reader.boolean
  let requireAuthority ← Reader.boolean
  let requireFreshObservation ← Reader.boolean
  let requireCapability ← Reader.boolean
  let priority ← Reader.u32
  let maxReassignmentsPerScope ← Reader.u64
  let reassignmentWindowMicros ← Reader.u64
  let maxAssignmentsPerDevice ← Reader.u64
  let reserve ← decDemand
  pure ⟨cls, required, allowedKinds, exclusiveKey, allowHostFallback, requireAuthority,
    requireFreshObservation, requireCapability, priority, maxReassignmentsPerScope,
    reassignmentWindowMicros, maxAssignmentsPerDevice, reserve⟩

/-- `encode_policy`, `src/wire.cpp:1457-1469`. -/
def encPolicy (v : PolicySnapshot) : Writer := do
  Writer.u64 v.generation
  encProvenance v.provenance
  encFreshness v.freshness
  Writer.boolean v.defaultDeny
  encList encPolicyRule v.rules

/-- `decode_policy`, `src/wire.cpp:1471-1493`. -/
def decPolicy (b : Bounds) : Reader PolicySnapshot := do
  let generation ← Reader.u64
  let provenance ← decProvenance
  let freshness ← decFreshness
  let defaultDeny ← Reader.boolean
  let rules ← decList b.maxFunctions.toNat decPolicyRule
  pure ⟨generation, provenance, freshness, rules, defaultDeny⟩

/-- `enc_authority`, `src/wire.cpp:636-658`. -/
def encAuthority (v : AuthorityGrant) : Writer := do
  Writer.token v.id
  Writer.u64 v.policyGeneration
  encList Writer.functionClass v.classes
  encDeviceKindList v.kinds
  encList Writer.enum8 v.actions
  Writer.token v.hostScope
  Writer.token v.scope
  Writer.semantics v.semanticsCeiling
  Writer.i64 v.issuedAt
  Writer.i64 v.expiresAt
  encProvenance v.provenance
  encFreshness v.freshness
  Writer.boolean v.revoked
  Writer.u64 v.maxUses
  Writer.u64 v.used

/-- `dec_authority`, `src/wire.cpp:660-701`. -/
def decAuthority : Reader AuthorityGrant := do
  let id ← Reader.token
  let policyGeneration ← Reader.u64
  let classes ← decList 64 Reader.functionClass
  let kinds ← decDeviceKindList 8
  let actions ← decList 8 Reader.enum8
  let hostScope ← Reader.token
  let scope ← Reader.token
  let semanticsCeiling ← Reader.semantics
  let issuedAt ← Reader.i64
  let expiresAt ← Reader.i64
  let provenance ← decProvenance
  let freshness ← decFreshness
  let revoked ← Reader.boolean
  let maxUses ← Reader.u64
  let used ← Reader.u64
  pure ⟨id, policyGeneration, classes, kinds, actions, hostScope, scope, semanticsCeiling,
    issuedAt, expiresAt, provenance, freshness, revoked, maxUses, used⟩

/-- `enc_observation`, `src/wire.cpp:703-711`. -/
def encObservation (v : DeviceObservation) : Writer := do
  Writer.token v.device
  encIncarnation v.incarnation
  Writer.enum8 v.liveness
  encCapacity v.available
  Writer.boolean v.availableKnown
  encFreshness v.freshness
  encProvenance v.provenance

/-- `dec_observation`, `src/wire.cpp:713-724`. -/
def decObservation : Reader DeviceObservation := do
  let device ← Reader.token
  let incarnation ← decIncarnation
  let liveness ← Reader.enum8
  let available ← decCapacity
  let availableKnown ← Reader.boolean
  let freshness ← decFreshness
  let provenance ← decProvenance
  pure ⟨device, incarnation, liveness, available, availableKnown, freshness, provenance⟩

/-- `encode_observation_report`, `src/wire.cpp:1529-1541`. -/
def encObservationReport (v : ObservationReport) : Writer := do
  Writer.u64 v.topologyGeneration
  encProvenance v.provenance
  encFreshness v.freshness
  encList encObservation v.devices

/-- `decode_observation_report`, `src/wire.cpp:1543-1564`. -/
def decObservationReport (b : Bounds) : Reader ObservationReport := do
  let topologyGeneration ← Reader.u64
  let provenance ← decProvenance
  let freshness ← decFreshness
  let devices ← decList b.maxObservations.toNat decObservation
  pure ⟨topologyGeneration, provenance, freshness, devices⟩

/-! ## Assignments and effects -/

/-- `enc_transition_record`, `src/wire.cpp:351-357`. -/
def encTransitionRecord (v : TransitionRecord) : Writer := do
  Writer.enum8 v.source
  Writer.enum8 v.target
  Writer.reasonCode v.reason
  Writer.i64 v.atTime
  encFence v.fence

/-- `dec_transition_record`, `src/wire.cpp:359-369`. -/
def decTransitionRecord : Reader TransitionRecord := do
  let source ← Reader.enum8
  let target ← Reader.enum8
  let reason ← Reader.reasonCode "unrecognized reason code"
  let atTime ← Reader.i64
  let fence ← decFence
  pure ⟨source, target, reason, atTime, fence⟩

/-- `enc_effect_record`, `src/wire.cpp:371-380`. -/
def encEffectRecord (v : EffectRecord) : Writer := do
  Writer.u64 v.attempt
  encFence v.fence
  Writer.u64 v.generation
  encIncarnation v.incarnation
  Writer.u64 v.capabilityGeneration
  Writer.enum8 v.outcome
  Writer.reasonCode v.reason
  Writer.i64 v.observedAt

/-- `dec_effect_record`, `src/wire.cpp:382-394`. -/
def decEffectRecord : Reader EffectRecord := do
  let attempt ← Reader.u64
  let fence ← decFence
  let generation ← Reader.u64
  let incarnation ← decIncarnation
  let capabilityGeneration ← Reader.u64
  let outcome ← Reader.enum8
  let reason ← Reader.reasonCode "unrecognized reason code"
  let observedAt ← Reader.i64
  pure ⟨attempt, fence, generation, incarnation, capabilityGeneration, outcome, reason,
    observedAt⟩

/-- `enc_assignment`, `src/wire.cpp:726-761`. -/
def encAssignment (v : AssignmentRecord) : Writer := do
  Writer.token v.id
  Writer.u64 v.generation
  Writer.token v.function
  Writer.functionClass v.cls
  encScopeSpec v.scope
  Writer.token v.scopeId
  Writer.enum8 v.exclusivity
  Writer.enum8 v.exclusiveKey
  Writer.enum8 v.mode
  Writer.enum8 v.state
  Writer.token v.device
  Writer.token v.host
  Writer.enum8 v.kind
  encIncarnation v.incarnation
  encDemand v.demand
  encBinding v.binding
  Writer.token v.authority
  Writer.u64 v.lease
  encFence v.fence
  Writer.u64 v.attempt
  Writer.digest v.requestFingerprint
  encProvenance v.provenance
  encFreshness v.freshness
  Writer.reasonCode v.stateReason
  Writer.i64 v.createdAt
  Writer.i64 v.updatedAt
  encList encTransitionRecord v.history
  encList encEffectRecord v.effects

/-- `dec_assignment`, `src/wire.cpp:763-818`. -/
def decAssignment (b : Bounds) : Reader AssignmentRecord := do
  let id ← Reader.token
  let generation ← Reader.u64
  let function ← Reader.token
  let cls ← Reader.functionClass
  let scope ← decScopeSpec
  let scopeId ← Reader.token
  let exclusivity ← Reader.enum8
  let exclusiveKey ← Reader.enum8
  let mode ← Reader.enum8
  let state ← Reader.enum8
  let device ← Reader.token
  let host ← Reader.token
  let kind ← Reader.enum8
  let incarnation ← decIncarnation
  let demand ← decDemand
  let binding ← decBinding
  let authority ← Reader.token
  let lease ← Reader.u64
  let fence ← decFence
  let attempt ← Reader.u64
  let requestFingerprint ← Reader.digest
  let provenance ← decProvenance
  let freshness ← decFreshness
  let stateReason ← Reader.reasonCode "unrecognized reason code"
  let createdAt ← Reader.i64
  let updatedAt ← Reader.i64
  let history ← decList b.maxHistoryPerAssignment.toNat decTransitionRecord
  let effects ← decList b.maxEffectsPerAssignment.toNat decEffectRecord
  pure ⟨id, generation, function, cls, scope, scopeId, exclusivity, exclusiveKey, mode, state,
    device, host, kind, incarnation, demand, binding, authority, lease, fence, attempt,
    requestFingerprint, provenance, freshness, stateReason, createdAt, updatedAt, history,
    effects⟩

/-- `encode_effect_report`, `src/wire.cpp:1615-1629`. -/
def encEffectReport (v : EffectReport) : Writer := do
  Writer.token v.requestId
  Writer.token v.assignment
  Writer.u64 v.attempt
  Writer.u64 v.generation
  encFence v.fence
  encIncarnation v.incarnation
  Writer.u64 v.capabilityGeneration
  Writer.enum8 v.outcome
  Writer.reasonCode v.detailReason
  Writer.i64 v.observedAt
  encProvenance v.provenance

/-- `decode_effect_report`, `src/wire.cpp:1631-1652`. -/
def decEffectReport : Reader EffectReport := do
  let requestId ← Reader.token
  let assignment ← Reader.token
  let attempt ← Reader.u64
  let generation ← Reader.u64
  let fence ← decFence
  let incarnation ← decIncarnation
  let capabilityGeneration ← Reader.u64
  let outcome ← Reader.enum8
  let detailReason ← Reader.reasonCode "unrecognized reason code"
  let observedAt ← Reader.i64
  let provenance ← decProvenance
  pure ⟨requestId, assignment, attempt, generation, fence, incarnation, capabilityGeneration,
    outcome, detailReason, observedAt, provenance⟩

/-! ## Requests, plans and candidates -/

/-- `enc_placement_request`, `src/wire.cpp:820-841`. -/
def encPlacementRequest (v : PlacementRequest) : Writer := do
  Writer.token v.requestId
  Writer.token v.function
  Writer.functionClass v.cls
  encScopeSpec v.scope
  Writer.semantics v.required
  encVersion v.requiredVersion
  Writer.enum8 v.exclusivity
  encDemand v.demand
  encList Writer.token v.preferredDevices
  encList Writer.token v.preferredHosts
  encList Writer.token v.antiAffinityDevices
  encList Writer.token v.antiAffinityHosts
  encLabels v.requiredLabels
  encList Writer.token v.dependencies
  Writer.u64 v.minTopology
  Writer.u64 v.minCapability
  Writer.u64 v.minPolicy
  Writer.boolean v.allowHostFallback
  Writer.u64 v.maxReassignments
  Writer.boolean v.requestReplacement

/-- `dec_placement_request`, `src/wire.cpp:843-873`; narrowing to `size_t` never refuses. -/
def decPlacementRequest (b : Bounds) : Reader PlacementRequest := do
  let requestId ← Reader.token
  let function ← Reader.token
  let cls ← Reader.functionClass
  let scope ← decScopeSpec
  let required ← Reader.semantics
  let requiredVersion ← decVersion
  let exclusivity ← Reader.enum8
  let demand ← decDemand
  let preferredDevices ← decList b.maxAffinityEntries.toNat Reader.token
  let preferredHosts ← decList b.maxAffinityEntries.toNat Reader.token
  let antiAffinityDevices ← decList b.maxAntiAffinityEntries.toNat Reader.token
  let antiAffinityHosts ← decList b.maxAntiAffinityEntries.toNat Reader.token
  let requiredLabels ← decLabels b.maxAntiAffinityEntries.toNat
  let dependencies ← decList b.maxDependenciesPerRequest.toNat Reader.token
  let minTopology ← Reader.u64
  let minCapability ← Reader.u64
  let minPolicy ← Reader.u64
  let allowHostFallback ← Reader.boolean
  let maxReassignments ← Reader.u64
  let requestReplacement ← Reader.boolean
  pure ⟨requestId, function, cls, scope, required, requiredVersion, exclusivity, demand,
    preferredDevices, preferredHosts, antiAffinityDevices, antiAffinityHosts, requiredLabels,
    dependencies, minTopology, minCapability, minPolicy, allowHostFallback, maxReassignments,
    requestReplacement⟩

/-- `enc_candidate`, `src/wire.cpp:875-892`. -/
def encCandidate (v : CandidateEvaluation) : Writer := do
  Writer.token v.device
  Writer.token v.host
  Writer.enum8 v.kind
  encIncarnation v.incarnation
  Writer.u64 v.capabilityGeneration
  Writer.boolean v.eligible
  Writer.u8 v.verdict.code
  Writer.reasonCode v.reason
  encList Writer.reasonCode v.contributing
  Writer.enum8 v.mode
  Writer.u64 v.rank
  Writer.u32 v.offloadRank
  Writer.u32 v.kindRank
  Writer.u32 v.localityRank
  Writer.u64 v.utilizationPpm
  Writer.digest v.evaluationDigest

/-- `dec_candidate`, `src/wire.cpp:894-916`. -/
def decCandidate (b : Bounds) : Reader CandidateEvaluation := do
  let device ← Reader.token
  let host ← Reader.token
  let kind ← Reader.enum8
  let incarnation ← decIncarnation
  let capabilityGeneration ← Reader.u64
  let eligible ← Reader.boolean
  let verdict ← Reader.enum8
  let reason ← Reader.reasonCode "unrecognized reason code"
  let contributing ←
    decList b.maxReasonsPerExplanation.toNat (Reader.reasonCode "unrecognized reason code")
  let mode ← Reader.enum8
  let rank ← Reader.u64
  let offloadRank ← Reader.u32
  let kindRank ← Reader.u32
  let localityRank ← Reader.u32
  let utilizationPpm ← Reader.u64
  let evaluationDigest ← Reader.digest
  pure ⟨device, host, kind, incarnation, capabilityGeneration, eligible, verdict, reason,
    contributing, mode, rank, offloadRank, kindRank, localityRank, utilizationPpm,
    evaluationDigest⟩

/-- `enc_plan`, `src/wire.cpp:917-935`. -/
def encPlan (v : AssignmentPlan) : Writer := do
  Writer.token v.requestId
  Writer.token v.function
  Writer.functionClass v.cls
  encScopeSpec v.scope
  Writer.token v.scopeId
  Writer.enum8 v.exclusivity
  Writer.enum8 v.exclusiveKey
  Writer.enum8 v.mode
  Writer.token v.device
  Writer.token v.host
  Writer.enum8 v.kind
  encIncarnation v.incarnation
  encDemand v.demand
  encBinding v.binding
  Writer.token v.authority
  Writer.semantics v.effectiveRequirement
  Writer.digest v.planDigest

/-- `dec_plan`, `src/wire.cpp:938-964`. -/
def decPlan : Reader AssignmentPlan := do
  let requestId ← Reader.token
  let function ← Reader.token
  let cls ← Reader.functionClass
  let scope ← decScopeSpec
  let scopeId ← Reader.token
  let exclusivity ← Reader.enum8
  let exclusiveKey ← Reader.enum8
  let mode ← Reader.enum8
  let device ← Reader.token
  let host ← Reader.token
  let kind ← Reader.enum8
  let incarnation ← decIncarnation
  let demand ← decDemand
  let binding ← decBinding
  let authority ← Reader.token
  let effectiveRequirement ← Reader.semantics
  let planDigest ← Reader.digest
  pure ⟨requestId, function, cls, scope, scopeId, exclusivity, exclusiveKey, mode, device, host,
    kind, incarnation, demand, binding, authority, effectiveRequirement, planDigest⟩

/-- `enc_explanation`, `src/wire.cpp:966-993`. -/
def encExplanation (v : Explanation) : Writer := do
  Writer.enum8 v.decision
  Writer.reasonCode v.primaryReason
  encList Writer.reasonCode v.reasons
  Writer.token v.requestId
  Writer.token v.function
  Writer.functionClass v.cls
  encScopeSpec v.scope
  Writer.token v.scopeId
  Writer.enum8 v.exclusivity
  Writer.enum8 v.mode
  encBinding v.binding
  Writer.token v.authority
  Writer.u64 v.lease
  encFence v.fence
  Writer.u64 v.attempt
  Writer.token v.assignment
  Writer.token v.replaced
  Writer.token v.selectedDevice
  encList encCandidate v.candidates
  Writer.u64 v.candidatesTotal
  Writer.boolean v.candidatesTruncated
  Writer.digest v.inputDigest
  Writer.digest v.decisionDigest

/-- `dec_explanation`, `src/wire.cpp:994-1039`; narrowing to `size_t` never refuses. -/
def decExplanation (b : Bounds) : Reader Explanation := do
  let decision ← Reader.enum8
  let primaryReason ← Reader.reasonCode "unrecognized reason code"
  let reasons ←
    decList b.maxReasonsPerExplanation.toNat (Reader.reasonCode "unrecognized reason code")
  let requestId ← Reader.token
  let function ← Reader.token
  let cls ← Reader.functionClass
  let scope ← decScopeSpec
  let scopeId ← Reader.token
  let exclusivity ← Reader.enum8
  let mode ← Reader.enum8
  let binding ← decBinding
  let authority ← Reader.token
  let lease ← Reader.u64
  let fence ← decFence
  let attempt ← Reader.u64
  let assignment ← Reader.token
  let replaced ← Reader.token
  let selectedDevice ← Reader.token
  let candidates ← decList b.maxCandidatesPerPlan.toNat (decCandidate b)
  let candidatesTotal ← Reader.u64
  let candidatesTruncated ← Reader.boolean
  let inputDigest ← Reader.digest
  let decisionDigest ← Reader.digest
  pure ⟨decision, primaryReason, reasons, requestId, function, cls, scope, scopeId, exclusivity,
    mode, binding, authority, lease, fence, attempt, assignment, replaced, selectedDevice,
    candidates, candidatesTotal, candidatesTruncated, inputDigest, decisionDigest⟩

/-- `encode_plan_result`, `src/wire.cpp:1723-1737`. -/
def encPlanResult (v : PlanResult) : Writer := do
  Writer.enum8 v.decision
  Writer.reasonCode v.primaryReason
  encList encCandidate v.candidates
  Writer.u64 v.candidatesTotal
  Writer.boolean v.candidatesTruncated
  encPlan v.plan
  encExplanation v.explanation

/-- `decode_plan_result`, `src/wire.cpp:1739-1769`. -/
def decPlanResult (b : Bounds) : Reader PlanResult := do
  let decision ← Reader.enum8
  let primaryReason ← Reader.reasonCode "unrecognized reason code"
  let candidates ← decList b.maxCandidatesPerPlan.toNat (decCandidate b)
  let candidatesTotal ← Reader.u64
  let candidatesTruncated ← Reader.boolean
  let plan ← decPlan
  let explanation ← decExplanation b
  pure ⟨decision, primaryReason, candidates, candidatesTotal, candidatesTruncated, plan,
    explanation⟩

/-! ## Digests -/

/-- `digest_with`, `include/nof/wire.hpp:135-146`. -/
def digestWith (w : Writer) (maxBytes : Nat) : Result Digest := do
  require (maxBytes ≠ 0) ⟨.invalidConfiguration, "zero digest bound"⟩
  let out ← w.encode maxBytes
  pure (sha256 out)

end OffloadFabric.Wire
