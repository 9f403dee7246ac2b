import OffloadFabric.Wire.Records
import Mathlib.Tactic.MkIffOfInductiveProp

/-!
# Round trips of the wire codecs

Decoding what an encoder wrote gives the value back exactly when the value is readable: its
texts are within the reader's text limit and its collections within the bounds that the
decoder checks. The encoders check neither, and the decoder refuses what is not readable.
-/

namespace OffloadFabric

open Lib Lib.Coder

/-- All texts of a list are within a reader's text limit. -/
def TextsFit (n : Nat) (texts : List Bytes) : Prop := ∀ t ∈ texts, t.length ≤ n

@[simp] theorem textsFit_nil (n : Nat) : TextsFit n [] := by
  simp [TextsFit]

@[simp] theorem textsFit_cons {n : Nat} {t : Bytes} {ts : List Bytes} :
    TextsFit n (t :: ts) ↔ t.length ≤ n ∧ TextsFit n ts := by
  simp [TextsFit]

@[simp] theorem textsFit_append {n : Nat} {ts us : List Bytes} :
    TextsFit n (ts ++ us) ↔ TextsFit n ts ∧ TextsFit n us := by
  simp [TextsFit, or_imp, forall_and]

theorem textsFit_flatMap {α : Type} {n : Nat} {f : α → List Bytes} {xs : List α} :
    TextsFit n (xs.flatMap f) ↔ ∀ x ∈ xs, TextsFit n (f x) := by
  simp only [TextsFit, List.mem_flatMap]
  constructor
  · intro h x hx t ht
    exact h t ⟨x, hx, ht⟩
  · intro h t ⟨x, hx, ht⟩
    exact h x hx t ht

namespace Wire

variable {cw n : Nat} {b : Bounds}

/-! ## Identities and quantities -/

theorem roundTrip_provenance (v : Provenance) :
    RoundTrip (encProvenance v) cw decProvenance n v (v.source.value.length ≤ n) :=
  RoundTrip.congr
    ((roundTrip_token _).bind <| (roundTrip_u64 _).last _)
    (by simp)

theorem roundTrip_freshness (v : Freshness) :
    RoundTrip (encFreshness v) cw decFreshness n v True :=
  RoundTrip.congr
    ((roundTrip_i64 _).bind <| (roundTrip_i64 _).last _)
    (by simp)

theorem roundTrip_incarnation (v : IncarnationId) :
    RoundTrip (encIncarnation v) cw decIncarnation n v (v.boot.value.length ≤ n) :=
  RoundTrip.congr
    ((roundTrip_u64 _).bind <| (roundTrip_token _).last _)
    (by simp)

theorem roundTrip_fence (v : FencingToken) :
    RoundTrip (encFence v) cw decFence n v True :=
  RoundTrip.congr
    ((roundTrip_u64 _).bind <| (roundTrip_u64 _).last _)
    (by simp)

theorem roundTrip_epoch (v : CoordinatorEpoch) :
    RoundTrip (encEpoch v) cw decEpoch n v (v.boot.value.length ≤ n) :=
  RoundTrip.congr
    ((roundTrip_u64 _).bind <| (roundTrip_token _).last _)
    (by simp)

theorem roundTrip_binding (v : GenerationBinding) :
    RoundTrip (encBinding v) cw decBinding n v True :=
  RoundTrip.congr
    ((roundTrip_u64 _).bind <| (roundTrip_u64 _).bind <| (roundTrip_u64 _).bind <|
      (roundTrip_u64 _).bind <| (roundTrip_u64 _).last _)
    (by simp)

theorem roundTrip_demand (v : DemandVector) :
    RoundTrip (encDemand v) cw decDemand n v True :=
  RoundTrip.congr
    ((roundTrip_u64 _).bind <| (roundTrip_u64 _).bind <| (roundTrip_u64 _).bind <|
      (roundTrip_u64 _).bind <| (roundTrip_u64 _).last _)
    (by simp)

theorem roundTrip_capacity (v : CapacityVector) :
    RoundTrip (encCapacity v) cw decCapacity n v True :=
  (roundTrip_demand _).last _

theorem roundTrip_version (v : SemanticVersion) :
    RoundTrip (encVersion v) cw decVersion n v True :=
  RoundTrip.congr
    ((roundTrip_u16 _).bind <| (roundTrip_u16 _).last _)
    (by simp)

theorem roundTrip_versionRange (v : VersionRange) :
    RoundTrip (encVersionRange v) cw decVersionRange n v True :=
  RoundTrip.congr
    ((roundTrip_version _).bind <| (roundTrip_version _).last _)
    (by simp)

end Wire

/-- The texts a scope specification is written with. -/
def ScopeSpec.texts (s : ScopeSpec) : List Bytes := [s.domain.value, s.device.value, s.selector]

namespace Wire

variable {cw n : Nat} {b : Bounds}

theorem roundTrip_scopeSpec (v : ScopeSpec) :
    RoundTrip (encScopeSpec v) cw decScopeSpec n v (TextsFit n v.texts) :=
  RoundTrip.congr
    ((roundTrip_enum8 _).bind <| (roundTrip_token _).bind <| (roundTrip_token _).bind <|
      (roundTrip_text _).last _)
    (by simp [ScopeSpec.texts])

theorem roundTrip_knownSemantics (v : SemanticsMask) :
    RoundTrip (Writer.semantics v) cw decSemantics n v (v.bits >>> semanticCount = 0) :=
  RoundTrip.congr
    ((roundTrip_semantics v).checked (fun h s ↦ if_pos h ▸ rfl) fun h s ↦ if_neg h ▸ ⟨_, _, rfl⟩)
    (by simp)

/-- The round trip of a counted collection. -/
theorem roundTrip_list {α : Type} {e : α → Writer} {d : Reader α} (xs : List α) (maxCount : Nat)
    {R : α → Prop} (h : ∀ x, RoundTrip (e x) cw d n x (R x)) :
    RoundTrip (encList e xs) cw (decList maxCount d) n xs (xs.length ≤ maxCount ∧ ∀ x ∈ xs, R x) :=
  roundTrip_counted xs maxCount h

theorem roundTrip_deviceKindList (xs : List DeviceKind) (maxCount : Nat) :
    RoundTrip (encDeviceKindList xs) cw (decDeviceKindList maxCount) n xs
      (xs.length ≤ maxCount) :=
  (roundTrip_list xs maxCount roundTrip_enum8).congr (by simp)

/-- Labels that a decoder accepts: canonical or empty, short enough and few enough. -/
def LabelsReadable (maxCount n : Nat) (labels : List Bytes) : Prop :=
  labels.length ≤ maxCount ∧ ∀ l ∈ labels, l.length ≤ n ∧ (l = [] ∨ isValidToken l = true)

theorem roundTrip_labels (labels : List Bytes) (maxCount : Nat) :
    RoundTrip (encLabels labels) cw (decLabels maxCount) n labels
      (LabelsReadable maxCount n labels) :=
  roundTrip_list labels maxCount roundTrip_label

end Wire

/-! ## Topology -/

/-- What `dec_host_record` asks of a host. -/
def HostRecord.Readable (b : Bounds) (n : Nat) (v : HostRecord) : Prop :=
  v.id.value.length ≤ n ∧ Wire.LabelsReadable (b.maxAntiAffinityEntries * 4).toNat n v.labels

/-- What `dec_device_record` asks of a device. -/
def DeviceRecord.Readable (b : Bounds) (n : Nat) (v : DeviceRecord) : Prop :=
  TextsFit n [v.id.value, v.host.value, v.incarnation.boot.value] ∧
    Wire.LabelsReadable (b.maxAntiAffinityEntries * 4).toNat n v.labels

/-- What `decode_topology` asks of a snapshot. -/
@[mk_iff] structure TopologySnapshot.Readable (b : Bounds) (n : Nat) (v : TopologySnapshot) :
    Prop where
  source : v.provenance.source.value.length ≤ n
  hostCount : v.hosts.length ≤ b.maxHosts.toNat
  hosts : ∀ h ∈ v.hosts, h.Readable b n
  deviceCount : v.devices.length ≤ b.maxDevices.toNat
  devices : ∀ d ∈ v.devices, d.Readable b n
  linkCount : v.links.length ≤ (b.maxDevices * 8).toNat
  links : ∀ l ∈ v.links, TextsFit n [l.a.value, l.b.value]

namespace Wire

variable {cw n : Nat} {b : Bounds}

theorem roundTrip_hostRecord (v : HostRecord) :
    RoundTrip (encHostRecord v) cw (decHostRecord b) n v (v.Readable b n) :=
  RoundTrip.congr
    ((roundTrip_token _).bind <| (roundTrip_labels _ _).last _)
    Iff.rfl

theorem roundTrip_deviceRecord (v : DeviceRecord) :
    RoundTrip (encDeviceRecord v) cw (decDeviceRecord b) n v (v.Readable b n) :=
  RoundTrip.congr
    ((roundTrip_token _).bind <| (roundTrip_token _).bind <| (roundTrip_enum8 _).bind <|
      (roundTrip_incarnation _).bind <| (roundTrip_capacity _).bind <|
      (roundTrip_labels _ _).bind <| (roundTrip_boolean _).last _)
    (by simp [DeviceRecord.Readable, and_assoc])

theorem roundTrip_link (v : LinkRecord) :
    RoundTrip (encLink v) cw decLink n v (TextsFit n [v.a.value, v.b.value]) :=
  RoundTrip.congr
    ((roundTrip_token _).bind <| (roundTrip_token _).bind <| (roundTrip_enum8 _).last _)
    (by simp)

theorem roundTrip_topology (v : TopologySnapshot) :
    RoundTrip (encTopology v) cw (decTopology b) n v (v.Readable b n) :=
  RoundTrip.congr
    ((roundTrip_u64 _).bind <| (roundTrip_provenance _).bind <| (roundTrip_freshness _).bind <|
      (roundTrip_list _ _ roundTrip_hostRecord).bind <|
      (roundTrip_list _ _ roundTrip_deviceRecord).bind <|
      (roundTrip_list _ _ roundTrip_link).last _)
    (by simp [TopologySnapshot.readable_iff, and_assoc])

end Wire

/-! ## Functions and capabilities -/

/-- What `decode_function` asks of a function. -/
def FunctionDescriptor.Readable (b : Bounds) (n : Nat) (v : FunctionDescriptor) : Prop :=
  v.id.value.length ≤ n ∧ v.required.count ≤ b.maxSemanticsPerRequirement.toNat

/-- What `dec_capability_record` asks of a record. -/
def CapabilityRecord.Readable (n : Nat) (v : CapabilityRecord) : Prop :=
  TextsFit n [v.device.value, v.incarnation.boot.value, v.provenance.source.value]

/-- What `decode_capability_report` asks of a report. -/
@[mk_iff] structure CapabilityReport.Readable (b : Bounds) (n : Nat) (v : CapabilityReport) :
    Prop where
  source : v.provenance.source.value.length ≤ n
  count : v.records.length ≤ b.maxCapabilityRecords.toNat
  records : ∀ r ∈ v.records, r.Readable n

namespace Wire

variable {cw n : Nat} {b : Bounds}

theorem roundTrip_function (v : FunctionDescriptor) :
    RoundTrip (encFunction v) cw (decFunction b) n v (v.Readable b n) :=
  RoundTrip.congr
    ((roundTrip_token _).bind <| (roundTrip_functionClass _).bind <|
      (roundTrip_semantics _).bind <| (roundTrip_version _).bind <|
      (roundTrip_boolean _).checked (fun h s ↦ if_pos h ▸ rfl) fun h s ↦ if_neg h ▸ ⟨_, _, rfl⟩)
    (by simp [FunctionDescriptor.Readable])

theorem roundTrip_capabilityRecord (v : CapabilityRecord) :
    RoundTrip (encCapabilityRecord v) cw decCapabilityRecord n v (v.Readable n) :=
  RoundTrip.congr
    ((roundTrip_token _).bind <| (roundTrip_incarnation _).bind <|
      (roundTrip_functionClass _).bind <| (roundTrip_semantics _).bind <|
      (roundTrip_semantics _).bind <| (roundTrip_semantics _).bind <|
      (roundTrip_versionRange _).bind <| (roundTrip_capacity _).bind <| (roundTrip_u64 _).bind <|
      (roundTrip_u64 _).bind <| (roundTrip_provenance _).bind <|
      (roundTrip_freshness _).bind <| (roundTrip_boolean _).last _)
    (by simp [CapabilityRecord.Readable])

theorem roundTrip_capabilityReport (v : CapabilityReport) :
    RoundTrip (encCapabilityReport v) cw (decCapabilityReport b) n v (v.Readable b n) :=
  RoundTrip.congr
    ((roundTrip_provenance _).bind <| (roundTrip_freshness _).bind <|
      (roundTrip_list _ _ roundTrip_capabilityRecord).last _)
    (by simp [CapabilityReport.readable_iff])

end Wire

/-! ## Policy, authority and observations -/

/-- What `decode_policy` asks of a snapshot. -/
@[mk_iff] structure PolicySnapshot.Readable (b : Bounds) (n : Nat) (v : PolicySnapshot) : Prop where
  source : v.provenance.source.value.length ≤ n
  count : v.rules.length ≤ b.maxFunctions.toNat
  kinds : ∀ r ∈ v.rules, r.allowedKinds.length ≤ 8

/-- What `dec_authority` asks of a grant. -/
@[mk_iff] structure AuthorityGrant.Readable (n : Nat) (v : AuthorityGrant) : Prop where
  texts : TextsFit n [v.id.value, v.hostScope.value, v.scope.value, v.provenance.source.value]
  classes : v.classes.length ≤ 64
  kinds : v.kinds.length ≤ 8
  actions : v.actions.length ≤ 8

/-- What `dec_observation` asks of an observation. -/
def DeviceObservation.Readable (n : Nat) (v : DeviceObservation) : Prop :=
  TextsFit n [v.device.value, v.incarnation.boot.value, v.provenance.source.value]

/-- What `decode_observation_report` asks of a report. -/
@[mk_iff] structure ObservationReport.Readable (b : Bounds) (n : Nat) (v : ObservationReport) :
    Prop where
  source : v.provenance.source.value.length ≤ n
  count : v.devices.length ≤ b.maxObservations.toNat
  devices : ∀ d ∈ v.devices, d.Readable n

namespace Wire

variable {cw n : Nat} {b : Bounds}

theorem roundTrip_policyRule (v : PolicyRule) :
    RoundTrip (encPolicyRule v) cw decPolicyRule n v (v.allowedKinds.length ≤ 8) :=
  RoundTrip.congr
    ((roundTrip_functionClass _).bind <| (roundTrip_semantics _).bind <|
      (roundTrip_deviceKindList _ _).bind <| (roundTrip_enum8 _).bind <|
      (roundTrip_boolean _).bind <| (roundTrip_boolean _).bind <| (roundTrip_boolean _).bind <|
      (roundTrip_boolean _).bind <| (roundTrip_u32 _).bind <| (roundTrip_u64 _).bind <|
      (roundTrip_u64 _).bind <| (roundTrip_u64 _).bind <| (roundTrip_demand _).last _)
    (by simp)

theorem roundTrip_policy (v : PolicySnapshot) :
    RoundTrip (encPolicy v) cw (decPolicy b) n v (v.Readable b n) :=
  RoundTrip.congr
    ((roundTrip_u64 _).bind <| (roundTrip_provenance _).bind <| (roundTrip_freshness _).bind <|
      (roundTrip_boolean _).bind <| (roundTrip_list _ _ roundTrip_policyRule).last _)
    (by simp [PolicySnapshot.readable_iff])

theorem roundTrip_authority (v : AuthorityGrant) :
    RoundTrip (encAuthority v) cw decAuthority n v (v.Readable n) :=
  RoundTrip.congr
    ((roundTrip_token _).bind <| (roundTrip_u64 _).bind <|
      (roundTrip_list _ _ roundTrip_functionClass).bind <|
      (roundTrip_deviceKindList _ _).bind <|
      (roundTrip_list _ _ roundTrip_enum8).bind <|
      (roundTrip_token _).bind <| (roundTrip_token _).bind <|
      (roundTrip_semantics _).bind <| (roundTrip_i64 _).bind <| (roundTrip_i64 _).bind <|
      (roundTrip_provenance _).bind <| (roundTrip_freshness _).bind <|
      (roundTrip_boolean _).bind <| (roundTrip_u64 _).bind <| (roundTrip_u64 _).last _)
    (by simp [AuthorityGrant.readable_iff]; tauto)

theorem roundTrip_observation (v : DeviceObservation) :
    RoundTrip (encObservation v) cw decObservation n v (v.Readable n) :=
  RoundTrip.congr
    ((roundTrip_token _).bind <| (roundTrip_incarnation _).bind <|
      (roundTrip_enum8 _).bind <| (roundTrip_capacity _).bind <| (roundTrip_boolean _).bind <|
      (roundTrip_freshness _).bind <| (roundTrip_provenance _).last _)
    (by simp [DeviceObservation.Readable])

theorem roundTrip_observationReport (v : ObservationReport) :
    RoundTrip (encObservationReport v) cw (decObservationReport b) n v (v.Readable b n) :=
  RoundTrip.congr
    ((roundTrip_u64 _).bind <| (roundTrip_provenance _).bind <| (roundTrip_freshness _).bind <|
      (roundTrip_list _ _ roundTrip_observation).last _)
    (by simp [ObservationReport.readable_iff])

end Wire

/-! ## Assignments, effects and requests -/

/-- The texts an assignment is written with, those of its effects apart. -/
def AssignmentRecord.texts (v : AssignmentRecord) : List Bytes :=
  [v.id.value, v.function.value] ++ v.scope.texts ++
    [v.scopeId.value, v.device.value, v.host.value, v.incarnation.boot.value,
      v.authority.value, v.provenance.source.value]

/-- What `dec_assignment` asks of a record. -/
@[mk_iff] structure AssignmentRecord.Readable (b : Bounds) (n : Nat) (v : AssignmentRecord) :
    Prop where
  texts : TextsFit n v.texts
  history : v.history.length ≤ b.maxHistoryPerAssignment.toNat
  effects : v.effects.length ≤ b.maxEffectsPerAssignment.toNat
  boots : ∀ e ∈ v.effects, e.incarnation.boot.value.length ≤ n

/-- The texts an effect report is written with. -/
def EffectReport.texts (v : EffectReport) : List Bytes :=
  [v.requestId.value, v.assignment.value, v.incarnation.boot.value, v.provenance.source.value]

/-- What `dec_placement_request` asks of a request. -/
@[mk_iff] structure PlacementRequest.Readable (b : Bounds) (n : Nat) (v : PlacementRequest) :
    Prop where
  ids : TextsFit n [v.requestId.value, v.function.value]
  scope : TextsFit n v.scope.texts
  preferredDevices : v.preferredDevices.length ≤ b.maxAffinityEntries.toNat ∧
    ∀ x ∈ v.preferredDevices, x.value.length ≤ n
  preferredHosts : v.preferredHosts.length ≤ b.maxAffinityEntries.toNat ∧
    ∀ x ∈ v.preferredHosts, x.value.length ≤ n
  antiAffinityDevices : v.antiAffinityDevices.length ≤ b.maxAntiAffinityEntries.toNat ∧
    ∀ x ∈ v.antiAffinityDevices, x.value.length ≤ n
  antiAffinityHosts : v.antiAffinityHosts.length ≤ b.maxAntiAffinityEntries.toNat ∧
    ∀ x ∈ v.antiAffinityHosts, x.value.length ≤ n
  requiredLabels : Wire.LabelsReadable b.maxAntiAffinityEntries.toNat n v.requiredLabels
  dependencies : v.dependencies.length ≤ b.maxDependenciesPerRequest.toNat ∧
    ∀ x ∈ v.dependencies, x.value.length ≤ n

namespace Wire

variable {cw n : Nat} {b : Bounds}

theorem roundTrip_transitionRecord (v : TransitionRecord) :
    RoundTrip (encTransitionRecord v) cw decTransitionRecord n v True :=
  RoundTrip.congr
    ((roundTrip_enum8 _).bind <| (roundTrip_enum8 _).bind <| (roundTrip_reasonCode _ _).bind <|
      (roundTrip_i64 _).bind <| (roundTrip_fence _).last _)
    (by simp)

theorem roundTrip_effectRecord (v : EffectRecord) :
    RoundTrip (encEffectRecord v) cw decEffectRecord n v (v.incarnation.boot.value.length ≤ n) :=
  RoundTrip.congr
    ((roundTrip_u64 _).bind <| (roundTrip_fence _).bind <| (roundTrip_u64 _).bind <|
      (roundTrip_incarnation _).bind <| (roundTrip_u64 _).bind <| (roundTrip_enum8 _).bind <|
      (roundTrip_reasonCode _ _).bind <| (roundTrip_i64 _).last _)
    (by simp)

theorem roundTrip_assignment (v : AssignmentRecord) :
    RoundTrip (encAssignment v) cw (decAssignment b) n v (v.Readable b n) :=
  RoundTrip.congr
    ((roundTrip_token _).bind <| (roundTrip_u64 _).bind <| (roundTrip_token _).bind <|
      (roundTrip_functionClass _).bind <| (roundTrip_scopeSpec _).bind <|
      (roundTrip_token _).bind <| (roundTrip_enum8 _).bind <| (roundTrip_enum8 _).bind <|
      (roundTrip_enum8 _).bind <| (roundTrip_enum8 _).bind <| (roundTrip_token _).bind <|
      (roundTrip_token _).bind <| (roundTrip_enum8 _).bind <|
      (roundTrip_incarnation _).bind <| (roundTrip_demand _).bind <|
      (roundTrip_binding _).bind <| (roundTrip_token _).bind <| (roundTrip_u64 _).bind <|
      (roundTrip_fence _).bind <| (roundTrip_u64 _).bind <| (roundTrip_digest _).bind <|
      (roundTrip_provenance _).bind <| (roundTrip_freshness _).bind <|
      (roundTrip_reasonCode _ _).bind <| (roundTrip_i64 _).bind <| (roundTrip_i64 _).bind <|
      (roundTrip_list _ _ roundTrip_transitionRecord).bind <|
      (roundTrip_list _ _ roundTrip_effectRecord).last _)
    (by simp [AssignmentRecord.readable_iff, AssignmentRecord.texts]; tauto)

theorem roundTrip_effectReport (v : EffectReport) :
    RoundTrip (encEffectReport v) cw decEffectReport n v (TextsFit n v.texts) :=
  RoundTrip.congr
    ((roundTrip_token _).bind <| (roundTrip_token _).bind <|
      (roundTrip_u64 _).bind <| (roundTrip_u64 _).bind <| (roundTrip_fence _).bind <|
      (roundTrip_incarnation _).bind <| (roundTrip_u64 _).bind <| (roundTrip_enum8 _).bind <|
      (roundTrip_reasonCode _ _).bind <| (roundTrip_i64 _).bind <|
      (roundTrip_provenance _).last _)
    (by simp [EffectReport.texts])

theorem roundTrip_placementRequest (v : PlacementRequest) :
    RoundTrip (encPlacementRequest v) cw (decPlacementRequest b) n v (v.Readable b n) :=
  RoundTrip.congr
    ((roundTrip_token _).bind <| (roundTrip_token _).bind <|
      (roundTrip_functionClass _).bind <| (roundTrip_scopeSpec _).bind <|
      (roundTrip_semantics _).bind <| (roundTrip_version _).bind <| (roundTrip_enum8 _).bind <|
      (roundTrip_demand _).bind <|
      (roundTrip_list _ _ roundTrip_token).bind <| (roundTrip_list _ _ roundTrip_token).bind <|
      (roundTrip_list _ _ roundTrip_token).bind <| (roundTrip_list _ _ roundTrip_token).bind <|
      (roundTrip_labels _ _).bind <| (roundTrip_list _ _ roundTrip_token).bind <|
      (roundTrip_u64 _).bind <| (roundTrip_u64 _).bind <| (roundTrip_u64 _).bind <|
      (roundTrip_boolean _).bind <| (roundTrip_u64 _).bind <| (roundTrip_boolean _).last _)
    (by simp [PlacementRequest.readable_iff, and_assoc])

end Wire

/-! ## Candidates, plans and explanations -/

/-- What `dec_candidate` asks of a candidate. -/
def CandidateEvaluation.Readable (b : Bounds) (n : Nat) (v : CandidateEvaluation) : Prop :=
  TextsFit n [v.device.value, v.host.value, v.incarnation.boot.value] ∧
    v.contributing.length ≤ b.maxReasonsPerExplanation.toNat

/-- The texts a plan is written with. -/
def AssignmentPlan.texts (v : AssignmentPlan) : List Bytes :=
  [v.requestId.value, v.function.value] ++ v.scope.texts ++
    [v.scopeId.value, v.device.value, v.host.value, v.incarnation.boot.value,
      v.authority.value]

/-- The texts an explanation is written with, those of its candidates apart. -/
def Explanation.texts (v : Explanation) : List Bytes :=
  [v.requestId.value, v.function.value] ++ v.scope.texts ++
    [v.scopeId.value, v.authority.value, v.assignment.value, v.replaced.value,
      v.selectedDevice.value]

/-- What `dec_explanation` asks of an explanation. -/
@[mk_iff] structure Explanation.Readable (b : Bounds) (n : Nat) (v : Explanation) : Prop where
  reasons : v.reasons.length ≤ b.maxReasonsPerExplanation.toNat
  texts : TextsFit n v.texts
  count : v.candidates.length ≤ b.maxCandidatesPerPlan.toNat
  candidates : ∀ e ∈ v.candidates, e.Readable b n

/-- What `decode_plan_result` asks of an answer. -/
@[mk_iff] structure PlanResult.Readable (b : Bounds) (n : Nat) (v : PlanResult) : Prop where
  count : v.candidates.length ≤ b.maxCandidatesPerPlan.toNat
  candidates : ∀ e ∈ v.candidates, e.Readable b n
  plan : TextsFit n v.plan.texts
  explanation : v.explanation.Readable b n

namespace Wire

variable {cw n : Nat} {b : Bounds}

theorem roundTrip_candidate (v : CandidateEvaluation) :
    RoundTrip (encCandidate v) cw (decCandidate b) n v (v.Readable b n) :=
  RoundTrip.congr
    ((roundTrip_token _).bind <| (roundTrip_token _).bind <| (roundTrip_enum8 _).bind <|
      (roundTrip_incarnation _).bind <| (roundTrip_u64 _).bind <| (roundTrip_boolean _).bind <|
      (roundTrip_enum8 v.verdict).bind <| (roundTrip_reasonCode _ _).bind <|
      (roundTrip_list _ _ (roundTrip_reasonCode _)).bind <| (roundTrip_enum8 _).bind <|
      (roundTrip_u64 _).bind <| (roundTrip_u32 _).bind <| (roundTrip_u32 _).bind <|
      (roundTrip_u32 _).bind <| (roundTrip_u64 _).bind <| (roundTrip_digest _).last _)
    (by simp [CandidateEvaluation.Readable, and_assoc])

theorem roundTrip_plan (v : AssignmentPlan) :
    RoundTrip (encPlan v) cw decPlan n v (TextsFit n v.texts) :=
  RoundTrip.congr
    ((roundTrip_token _).bind <| (roundTrip_token _).bind <|
      (roundTrip_functionClass _).bind <| (roundTrip_scopeSpec _).bind <|
      (roundTrip_token _).bind <| (roundTrip_enum8 _).bind <| (roundTrip_enum8 _).bind <|
      (roundTrip_enum8 _).bind <| (roundTrip_token _).bind <| (roundTrip_token _).bind <|
      (roundTrip_enum8 _).bind <| (roundTrip_incarnation _).bind <|
      (roundTrip_demand _).bind <| (roundTrip_binding _).bind <| (roundTrip_token _).bind <|
      (roundTrip_semantics _).bind <| (roundTrip_digest _).last _)
    (by simp [AssignmentPlan.texts])

theorem roundTrip_explanation (v : Explanation) :
    RoundTrip (encExplanation v) cw (decExplanation b) n v (v.Readable b n) :=
  RoundTrip.congr
    ((roundTrip_enum8 _).bind <| (roundTrip_reasonCode _ _).bind <|
      (roundTrip_list _ _ (roundTrip_reasonCode _)).bind <|
      (roundTrip_token _).bind <| (roundTrip_token _).bind <|
      (roundTrip_functionClass _).bind <| (roundTrip_scopeSpec _).bind <|
      (roundTrip_token _).bind <| (roundTrip_enum8 _).bind <| (roundTrip_enum8 _).bind <|
      (roundTrip_binding _).bind <| (roundTrip_token _).bind <| (roundTrip_u64 _).bind <|
      (roundTrip_fence _).bind <| (roundTrip_u64 _).bind <| (roundTrip_token _).bind <|
      (roundTrip_token _).bind <| (roundTrip_token _).bind <|
      (roundTrip_list _ _ roundTrip_candidate).bind <| (roundTrip_u64 _).bind <|
      (roundTrip_boolean _).bind <| (roundTrip_digest _).bind <| (roundTrip_digest _).last _)
    (by simp [Explanation.readable_iff, Explanation.texts]; tauto)

theorem roundTrip_planResult (v : PlanResult) :
    RoundTrip (encPlanResult v) cw (decPlanResult b) n v (v.Readable b n) :=
  RoundTrip.congr
    ((roundTrip_enum8 _).bind <| (roundTrip_reasonCode _ _).bind <|
      (roundTrip_list _ _ roundTrip_candidate).bind <| (roundTrip_u64 _).bind <|
      (roundTrip_boolean _).bind <| (roundTrip_plan _).bind <|
      (roundTrip_explanation _).last _)
    (by simp [PlanResult.readable_iff, and_assoc])

end Wire

end OffloadFabric
