import OffloadFabric.Wire.Canonical

/-!
# Byte formats of the domain types

The layout of each record in the order of its fields, `src/wire.cpp:142-1039`, and that its
decoder takes exactly such bytes and its encoder writes them again.
-/

namespace OffloadFabric.Wire

open Lib Lib.Coder

/-! ## Layouts -/

/-- The fields of `enc_provenance`. -/
def provenanceLayout : Layout :=
  .seq .sized (.fixed 8)

/-- The fields of `enc_freshness`. -/
def freshnessLayout : Layout :=
  .seq (.fixed 8) (.fixed 8)

/-- The fields of `enc_incarnation`. -/
def incarnationLayout : Layout :=
  .seq (.fixed 8) .sized

/-- The fields of `enc_fence`. -/
def fenceLayout : Layout :=
  .seq (.fixed 8) (.fixed 8)

/-- The fields of `enc_epoch`. -/
def epochLayout : Layout :=
  .seq (.fixed 8) .sized

/-- The fields of `enc_binding`. -/
def bindingLayout : Layout :=
  .seq (.fixed 8) <| .seq (.fixed 8) <| .seq (.fixed 8) <| .seq (.fixed 8) (.fixed 8)

/-- The fields of `enc_demand`. -/
def demandLayout : Layout :=
  .seq (.fixed 8) <| .seq (.fixed 8) <| .seq (.fixed 8) <| .seq (.fixed 8) (.fixed 8)

/-- The fields of `enc_version`. -/
def versionLayout : Layout :=
  .seq (.fixed 2) (.fixed 2)

/-- The fields of `enc_version_range`. -/
def versionRangeLayout : Layout :=
  .seq versionLayout versionLayout

/-- The fields of `enc_scope_spec`. -/
def scopeSpecLayout : Layout :=
  .seq (.fixed 1) <| .seq .sized <| .seq .sized .sized

/-- The fields of `enc_host_record`. -/
def hostRecordLayout : Layout :=
  .seq .sized (.counted .sized)

/-- The fields of `enc_device_record`. -/
def deviceRecordLayout : Layout :=
  .seq .sized <| .seq .sized <| .seq (.fixed 1) <| .seq incarnationLayout <| .seq demandLayout <|
    .seq (.counted .sized) (.fixed 1)

/-- The fields of `encode_link`. -/
def linkLayout : Layout :=
  .seq .sized <| .seq .sized (.fixed 1)

/-- The fields of `encode_topology`. -/
def topologyLayout : Layout :=
  .seq (.fixed 8) <| .seq provenanceLayout <| .seq freshnessLayout <|
    .seq (.counted hostRecordLayout) <| .seq (.counted deviceRecordLayout) (.counted linkLayout)

/-- The fields of `enc_function`. -/
def functionLayout : Layout :=
  .seq .sized <| .seq .padded <| .seq (.fixed 8) <| .seq versionLayout (.fixed 1)

/-- The fields of `enc_capability_record`. -/
def capabilityRecordLayout : Layout :=
  .seq .sized <| .seq incarnationLayout <| .seq .padded <| .seq (.fixed 8) <| .seq (.fixed 8) <|
    .seq (.fixed 8) <| .seq versionRangeLayout <| .seq demandLayout <| .seq (.fixed 8) <|
    .seq (.fixed 8) <| .seq provenanceLayout <| .seq freshnessLayout (.fixed 1)

/-- The fields of `encode_capability_report`. -/
def capabilityReportLayout : Layout :=
  .seq provenanceLayout <| .seq freshnessLayout (.counted capabilityRecordLayout)

/-- The fields of `enc_policy_rule`. -/
def policyRuleLayout : Layout :=
  .seq .padded <| .seq (.fixed 8) <| .seq (.counted (.fixed 1)) <| .seq (.fixed 1) <|
    .seq (.fixed 1) <| .seq (.fixed 1) <| .seq (.fixed 1) <| .seq (.fixed 1) <|
    .seq (.fixed 4) <| .seq (.fixed 8) <| .seq (.fixed 8) <| .seq (.fixed 8) demandLayout

/-- The fields of `encode_policy`. -/
def policyLayout : Layout :=
  .seq (.fixed 8) <| .seq provenanceLayout <| .seq freshnessLayout <|
    .seq (.fixed 1) (.counted policyRuleLayout)

/-- The fields of `enc_authority`. -/
def authorityLayout : Layout :=
  .seq .sized <| .seq (.fixed 8) <| .seq (.counted .padded) <| .seq (.counted (.fixed 1)) <|
    .seq (.counted (.fixed 1)) <| .seq .sized <| .seq .sized <| .seq (.fixed 8) <|
    .seq (.fixed 8) <| .seq (.fixed 8) <| .seq provenanceLayout <| .seq freshnessLayout <|
    .seq (.fixed 1) <| .seq (.fixed 8) (.fixed 8)

/-- The fields of `enc_observation`. -/
def observationLayout : Layout :=
  .seq .sized <| .seq incarnationLayout <| .seq (.fixed 1) <| .seq demandLayout <|
    .seq (.fixed 1) <| .seq freshnessLayout provenanceLayout

/-- The fields of `encode_observation_report`. -/
def observationReportLayout : Layout :=
  .seq (.fixed 8) <| .seq provenanceLayout <| .seq freshnessLayout (.counted observationLayout)

/-- The fields of `enc_transition_record`. -/
def transitionRecordLayout : Layout :=
  .seq (.fixed 1) <| .seq (.fixed 1) <| .seq (.fixed 2) <| .seq (.fixed 8) fenceLayout

/-- The fields of `enc_effect_record`. -/
def effectRecordLayout : Layout :=
  .seq (.fixed 8) <| .seq fenceLayout <| .seq (.fixed 8) <| .seq incarnationLayout <|
    .seq (.fixed 8) <| .seq (.fixed 1) <| .seq (.fixed 2) (.fixed 8)

/-- The fields of `enc_assignment`. -/
def assignmentLayout : Layout :=
  .seq .sized <| .seq (.fixed 8) <| .seq .sized <| .seq .padded <| .seq scopeSpecLayout <|
    .seq .sized <| .seq (.fixed 1) <| .seq (.fixed 1) <| .seq (.fixed 1) <| .seq (.fixed 1) <|
    .seq .sized <| .seq .sized <| .seq (.fixed 1) <| .seq incarnationLayout <|
    .seq demandLayout <| .seq bindingLayout <| .seq .sized <| .seq (.fixed 8) <|
    .seq fenceLayout <| .seq (.fixed 8) <| .seq (.fixed 32) <| .seq provenanceLayout <|
    .seq freshnessLayout <| .seq (.fixed 2) <| .seq (.fixed 8) <| .seq (.fixed 8) <|
    .seq (.counted transitionRecordLayout) (.counted effectRecordLayout)

/-- The fields of `encode_effect_report`. -/
def effectReportLayout : Layout :=
  .seq .sized <| .seq .sized <| .seq (.fixed 8) <| .seq (.fixed 8) <| .seq fenceLayout <|
    .seq incarnationLayout <| .seq (.fixed 8) <| .seq (.fixed 1) <| .seq (.fixed 2) <|
    .seq (.fixed 8) provenanceLayout

/-- The fields of `enc_placement_request`. -/
def placementRequestLayout : Layout :=
  .seq .sized <| .seq .sized <| .seq .padded <| .seq scopeSpecLayout <| .seq (.fixed 8) <|
    .seq versionLayout <| .seq (.fixed 1) <| .seq demandLayout <| .seq (.counted .sized) <|
    .seq (.counted .sized) <| .seq (.counted .sized) <| .seq (.counted .sized) <|
    .seq (.counted .sized) <| .seq (.counted .sized) <| .seq (.fixed 8) <| .seq (.fixed 8) <|
    .seq (.fixed 8) <| .seq (.fixed 1) <| .seq (.fixed 8) (.fixed 1)

/-- The fields of `enc_plan`. -/
def planLayout : Layout :=
  .seq .sized <| .seq .sized <| .seq .padded <| .seq scopeSpecLayout <| .seq .sized <|
    .seq (.fixed 1) <| .seq (.fixed 1) <| .seq (.fixed 1) <| .seq .sized <| .seq .sized <|
    .seq (.fixed 1) <| .seq incarnationLayout <| .seq demandLayout <| .seq bindingLayout <|
    .seq .sized <| .seq (.fixed 8) (.fixed 32)

/-- The fields of `enc_candidate`. -/
def candidateLayout : Layout :=
  .seq .sized <| .seq .sized <| .seq (.fixed 1) <| .seq incarnationLayout <| .seq (.fixed 8) <|
    .seq (.fixed 1) <| .seq (.fixed 1) <| .seq (.fixed 2) <| .seq (.counted (.fixed 2)) <|
    .seq (.fixed 1) <| .seq (.fixed 8) <| .seq (.fixed 4) <| .seq (.fixed 4) <|
    .seq (.fixed 4) <| .seq (.fixed 8) (.fixed 32)

/-- The fields of `enc_explanation`. -/
def explanationLayout : Layout :=
  .seq (.fixed 1) <| .seq (.fixed 2) <| .seq (.counted (.fixed 2)) <| .seq .sized <|
    .seq .sized <| .seq .padded <| .seq scopeSpecLayout <| .seq .sized <| .seq (.fixed 1) <|
    .seq (.fixed 1) <| .seq bindingLayout <| .seq .sized <| .seq (.fixed 8) <|
    .seq fenceLayout <| .seq (.fixed 8) <| .seq .sized <| .seq .sized <| .seq .sized <|
    .seq (.counted candidateLayout) <| .seq (.fixed 8) <| .seq (.fixed 1) <|
    .seq (.fixed 32) (.fixed 32)

/-- The fields of `encode_plan_result`. -/
def planResultLayout : Layout :=
  .seq (.fixed 1) <| .seq (.fixed 2) <| .seq (.counted candidateLayout) <| .seq (.fixed 8) <|
    .seq (.fixed 1) <| .seq planLayout explanationLayout

/-! ## Canonical decoders -/

variable {n : Nat} {b : Bounds}

theorem canonical_provenance : Canonical provenanceLayout n decProvenance encProvenance :=
  canonical_token.bind fun _ ↦ canonical_u64.last fun _ ↦ rfl

theorem canonical_freshness : Canonical freshnessLayout n decFreshness encFreshness :=
  canonical_i64.bind fun _ ↦ canonical_i64.last fun _ ↦ rfl

theorem canonical_incarnation : Canonical incarnationLayout n decIncarnation encIncarnation :=
  canonical_u64.bind fun _ ↦ canonical_token.last fun _ ↦ rfl

theorem canonical_fence : Canonical fenceLayout n decFence encFence :=
  canonical_u64.bind fun _ ↦ canonical_u64.last fun _ ↦ rfl

theorem canonical_epoch : Canonical epochLayout n decEpoch encEpoch :=
  canonical_u64.bind fun _ ↦ canonical_token.last fun _ ↦ rfl

theorem canonical_binding : Canonical bindingLayout n decBinding encBinding :=
  canonical_u64.bind fun _ ↦ canonical_u64.bind fun _ ↦ canonical_u64.bind fun _ ↦
    canonical_u64.bind fun _ ↦ canonical_u64.last fun _ ↦ rfl

theorem canonical_demand : Canonical demandLayout n decDemand encDemand :=
  canonical_u64.bind fun _ ↦ canonical_u64.bind fun _ ↦ canonical_u64.bind fun _ ↦
    canonical_u64.bind fun _ ↦ canonical_u64.last fun _ ↦ rfl

theorem canonical_capacity : Canonical demandLayout n decCapacity encCapacity :=
  canonical_demand.last fun _ ↦ rfl

theorem canonical_version : Canonical versionLayout n decVersion encVersion :=
  canonical_u16.bind fun _ ↦ canonical_u16.last fun _ ↦ rfl

theorem canonical_versionRange : Canonical versionRangeLayout n decVersionRange encVersionRange :=
  canonical_version.bind fun _ ↦ canonical_version.last fun _ ↦ rfl

theorem canonical_scopeSpec : Canonical scopeSpecLayout n decScopeSpec encScopeSpec :=
  canonical_enum8.bind fun _ ↦ canonical_token.bind fun _ ↦ canonical_token.bind fun _ ↦
    canonical_text.last fun _ ↦ rfl

theorem canonical_hostRecord : Canonical hostRecordLayout n (decHostRecord b) encHostRecord :=
  canonical_token.bind fun _ ↦ (canonical_list _ canonical_label).last fun _ ↦ rfl

theorem canonical_deviceRecord :
    Canonical deviceRecordLayout n (decDeviceRecord b) encDeviceRecord :=
  canonical_token.bind fun _ ↦ canonical_token.bind fun _ ↦ canonical_enum8.bind fun _ ↦
    canonical_incarnation.bind fun _ ↦ canonical_capacity.bind fun _ ↦
    (canonical_list _ canonical_label).bind fun _ ↦ canonical_boolean.last fun _ ↦ rfl

theorem canonical_link : Canonical linkLayout n decLink encLink :=
  canonical_token.bind fun _ ↦ canonical_token.bind fun _ ↦ canonical_enum8.last fun _ ↦ rfl

theorem canonical_topology : Canonical topologyLayout n (decTopology b) encTopology :=
  canonical_u64.bind fun _ ↦ canonical_provenance.bind fun _ ↦ canonical_freshness.bind fun _ ↦
    (canonical_list _ canonical_hostRecord).bind fun _ ↦
    (canonical_list _ canonical_deviceRecord).bind fun _ ↦
    (canonical_list _ canonical_link).last fun _ ↦ rfl

theorem canonical_function : Canonical functionLayout n (decFunction b) encFunction := by
  refine canonical_token.bind fun _ ↦ canonical_functionClass.bind fun _ ↦
    canonical_semantics.bind fun _ ↦ canonical_version.bind fun _ ↦
    canonical_boolean.checked fun h ↦ ?_
  split at h
  · cases h
    exact ⟨rfl, rfl⟩
  · cases h

theorem canonical_capabilityRecord :
    Canonical capabilityRecordLayout n decCapabilityRecord encCapabilityRecord :=
  canonical_token.bind fun _ ↦ canonical_incarnation.bind fun _ ↦
    canonical_functionClass.bind fun _ ↦ canonical_semantics.bind fun _ ↦
    canonical_semantics.bind fun _ ↦ canonical_semantics.bind fun _ ↦
    canonical_versionRange.bind fun _ ↦ canonical_capacity.bind fun _ ↦
    canonical_u64.bind fun _ ↦ canonical_u64.bind fun _ ↦ canonical_provenance.bind fun _ ↦
    canonical_freshness.bind fun _ ↦ canonical_boolean.last fun _ ↦ rfl

theorem canonical_capabilityReport :
    Canonical capabilityReportLayout n (decCapabilityReport b) encCapabilityReport :=
  canonical_provenance.bind fun _ ↦ canonical_freshness.bind fun _ ↦
    (canonical_list _ canonical_capabilityRecord).last fun _ ↦ rfl

theorem canonical_policyRule : Canonical policyRuleLayout n decPolicyRule encPolicyRule :=
  canonical_functionClass.bind fun _ ↦ canonical_semantics.bind fun _ ↦
    (canonical_list _ canonical_enum8).bind fun _ ↦ canonical_enum8.bind fun _ ↦
    canonical_boolean.bind fun _ ↦ canonical_boolean.bind fun _ ↦ canonical_boolean.bind fun _ ↦
    canonical_boolean.bind fun _ ↦ canonical_u32.bind fun _ ↦ canonical_u64.bind fun _ ↦
    canonical_u64.bind fun _ ↦ canonical_u64.bind fun _ ↦ canonical_demand.last fun _ ↦ rfl

theorem canonical_policy : Canonical policyLayout n (decPolicy b) encPolicy :=
  canonical_u64.bind fun _ ↦ canonical_provenance.bind fun _ ↦ canonical_freshness.bind fun _ ↦
    canonical_boolean.bind fun _ ↦ (canonical_list _ canonical_policyRule).last fun _ ↦ rfl

theorem canonical_authority : Canonical authorityLayout n decAuthority encAuthority :=
  canonical_token.bind fun _ ↦ canonical_u64.bind fun _ ↦
    (canonical_list _ canonical_functionClass).bind fun _ ↦
    (canonical_list _ canonical_enum8).bind fun _ ↦
    (canonical_list _ canonical_enum8).bind fun _ ↦ canonical_token.bind fun _ ↦
    canonical_token.bind fun _ ↦ canonical_semantics.bind fun _ ↦ canonical_i64.bind fun _ ↦
    canonical_i64.bind fun _ ↦ canonical_provenance.bind fun _ ↦ canonical_freshness.bind fun _ ↦
    canonical_boolean.bind fun _ ↦ canonical_u64.bind fun _ ↦ canonical_u64.last fun _ ↦ rfl

theorem canonical_observation : Canonical observationLayout n decObservation encObservation :=
  canonical_token.bind fun _ ↦ canonical_incarnation.bind fun _ ↦ canonical_enum8.bind fun _ ↦
    canonical_capacity.bind fun _ ↦ canonical_boolean.bind fun _ ↦
    canonical_freshness.bind fun _ ↦ canonical_provenance.last fun _ ↦ rfl

theorem canonical_observationReport :
    Canonical observationReportLayout n (decObservationReport b) encObservationReport :=
  canonical_u64.bind fun _ ↦ canonical_provenance.bind fun _ ↦ canonical_freshness.bind fun _ ↦
    (canonical_list _ canonical_observation).last fun _ ↦ rfl

theorem canonical_transitionRecord :
    Canonical transitionRecordLayout n decTransitionRecord encTransitionRecord :=
  canonical_enum8.bind fun _ ↦ canonical_enum8.bind fun _ ↦ (canonical_reasonCode _).bind fun _ ↦
    canonical_i64.bind fun _ ↦ canonical_fence.last fun _ ↦ rfl

theorem canonical_effectRecord : Canonical effectRecordLayout n decEffectRecord encEffectRecord :=
  canonical_u64.bind fun _ ↦ canonical_fence.bind fun _ ↦ canonical_u64.bind fun _ ↦
    canonical_incarnation.bind fun _ ↦ canonical_u64.bind fun _ ↦ canonical_enum8.bind fun _ ↦
    (canonical_reasonCode _).bind fun _ ↦ canonical_i64.last fun _ ↦ rfl

theorem canonical_assignment : Canonical assignmentLayout n (decAssignment b) encAssignment :=
  canonical_token.bind fun _ ↦ canonical_u64.bind fun _ ↦ canonical_token.bind fun _ ↦
    canonical_functionClass.bind fun _ ↦ canonical_scopeSpec.bind fun _ ↦
    canonical_token.bind fun _ ↦ canonical_enum8.bind fun _ ↦ canonical_enum8.bind fun _ ↦
    canonical_enum8.bind fun _ ↦ canonical_enum8.bind fun _ ↦ canonical_token.bind fun _ ↦
    canonical_token.bind fun _ ↦ canonical_enum8.bind fun _ ↦ canonical_incarnation.bind fun _ ↦
    canonical_demand.bind fun _ ↦ canonical_binding.bind fun _ ↦ canonical_token.bind fun _ ↦
    canonical_u64.bind fun _ ↦ canonical_fence.bind fun _ ↦ canonical_u64.bind fun _ ↦
    canonical_digest.bind fun _ ↦ canonical_provenance.bind fun _ ↦
    canonical_freshness.bind fun _ ↦ (canonical_reasonCode _).bind fun _ ↦
    canonical_i64.bind fun _ ↦ canonical_i64.bind fun _ ↦
    (canonical_list _ canonical_transitionRecord).bind fun _ ↦
    (canonical_list _ canonical_effectRecord).last fun _ ↦ rfl

theorem canonical_effectReport : Canonical effectReportLayout n decEffectReport encEffectReport :=
  canonical_token.bind fun _ ↦ canonical_token.bind fun _ ↦ canonical_u64.bind fun _ ↦
    canonical_u64.bind fun _ ↦ canonical_fence.bind fun _ ↦ canonical_incarnation.bind fun _ ↦
    canonical_u64.bind fun _ ↦ canonical_enum8.bind fun _ ↦ (canonical_reasonCode _).bind fun _ ↦
    canonical_i64.bind fun _ ↦ canonical_provenance.last fun _ ↦ rfl

theorem canonical_placementRequest :
    Canonical placementRequestLayout n (decPlacementRequest b) encPlacementRequest :=
  canonical_token.bind fun _ ↦ canonical_token.bind fun _ ↦ canonical_functionClass.bind fun _ ↦
    canonical_scopeSpec.bind fun _ ↦ canonical_semantics.bind fun _ ↦
    canonical_version.bind fun _ ↦ canonical_enum8.bind fun _ ↦ canonical_demand.bind fun _ ↦
    (canonical_list _ canonical_token).bind fun _ ↦
    (canonical_list _ canonical_token).bind fun _ ↦
    (canonical_list _ canonical_token).bind fun _ ↦
    (canonical_list _ canonical_token).bind fun _ ↦
    (canonical_list _ canonical_label).bind fun _ ↦
    (canonical_list _ canonical_token).bind fun _ ↦ canonical_u64.bind fun _ ↦
    canonical_u64.bind fun _ ↦ canonical_u64.bind fun _ ↦ canonical_boolean.bind fun _ ↦
    canonical_u64.bind fun _ ↦ canonical_boolean.last fun _ ↦ rfl

theorem canonical_plan : Canonical planLayout n decPlan encPlan :=
  canonical_token.bind fun _ ↦ canonical_token.bind fun _ ↦ canonical_functionClass.bind fun _ ↦
    canonical_scopeSpec.bind fun _ ↦ canonical_token.bind fun _ ↦ canonical_enum8.bind fun _ ↦
    canonical_enum8.bind fun _ ↦ canonical_enum8.bind fun _ ↦ canonical_token.bind fun _ ↦
    canonical_token.bind fun _ ↦ canonical_enum8.bind fun _ ↦ canonical_incarnation.bind fun _ ↦
    canonical_demand.bind fun _ ↦ canonical_binding.bind fun _ ↦ canonical_token.bind fun _ ↦
    canonical_semantics.bind fun _ ↦ canonical_digest.last fun _ ↦ rfl

theorem canonical_candidate : Canonical candidateLayout n (decCandidate b) encCandidate :=
  canonical_token.bind fun _ ↦ canonical_token.bind fun _ ↦ canonical_enum8.bind fun _ ↦
    canonical_incarnation.bind fun _ ↦ canonical_u64.bind fun _ ↦ canonical_boolean.bind fun _ ↦
    canonical_enum8.bind fun _ ↦ (canonical_reasonCode _).bind fun _ ↦
    (canonical_list _ (canonical_reasonCode _)).bind fun _ ↦ canonical_enum8.bind fun _ ↦
    canonical_u64.bind fun _ ↦ canonical_u32.bind fun _ ↦ canonical_u32.bind fun _ ↦
    canonical_u32.bind fun _ ↦ canonical_u64.bind fun _ ↦ canonical_digest.last fun _ ↦ rfl

theorem canonical_explanation : Canonical explanationLayout n (decExplanation b) encExplanation :=
  canonical_enum8.bind fun _ ↦ (canonical_reasonCode _).bind fun _ ↦
    (canonical_list _ (canonical_reasonCode _)).bind fun _ ↦ canonical_token.bind fun _ ↦
    canonical_token.bind fun _ ↦ canonical_functionClass.bind fun _ ↦
    canonical_scopeSpec.bind fun _ ↦ canonical_token.bind fun _ ↦ canonical_enum8.bind fun _ ↦
    canonical_enum8.bind fun _ ↦ canonical_binding.bind fun _ ↦ canonical_token.bind fun _ ↦
    canonical_u64.bind fun _ ↦ canonical_fence.bind fun _ ↦ canonical_u64.bind fun _ ↦
    canonical_token.bind fun _ ↦ canonical_token.bind fun _ ↦ canonical_token.bind fun _ ↦
    (canonical_list _ canonical_candidate).bind fun _ ↦ canonical_u64.bind fun _ ↦
    canonical_boolean.bind fun _ ↦ canonical_digest.bind fun _ ↦
    canonical_digest.last fun _ ↦ rfl

theorem canonical_planResult : Canonical planResultLayout n (decPlanResult b) encPlanResult :=
  canonical_enum8.bind fun _ ↦ (canonical_reasonCode _).bind fun _ ↦
    (canonical_list _ canonical_candidate).bind fun _ ↦ canonical_u64.bind fun _ ↦
    canonical_boolean.bind fun _ ↦ canonical_plan.bind fun _ ↦
    canonical_explanation.last fun _ ↦ rfl

theorem canonical_knownSemantics :
    Canonical (.fixed 8) n decSemantics Writer.semantics := by
  refine canonical_semantics.checked (π := id) fun {a s t b} h ↦ ?_
  split at h
  · cases h
    exact ⟨rfl, rfl⟩
  · cases h

namespace DomainType

/-- The byte format of a domain type. -/
def layout : DomainType → Layout
  | provenance => provenanceLayout
  | freshness => freshnessLayout
  | incarnation => incarnationLayout
  | fence => fenceLayout
  | epoch => epochLayout
  | binding => bindingLayout
  | demand => demandLayout
  | capacity => demandLayout
  | semantics => .fixed 8
  | version => versionLayout
  | versionRange => versionRangeLayout
  | scopeSpec => scopeSpecLayout
  | host => hostRecordLayout
  | device => deviceRecordLayout
  | link => linkLayout
  | topology => topologyLayout
  | function => functionLayout
  | capabilityRecord => capabilityRecordLayout
  | capabilityReport => capabilityReportLayout
  | policyRule => policyRuleLayout
  | policy => policyLayout
  | authority => authorityLayout
  | observation => observationLayout
  | observationReport => observationReportLayout
  | transition => transitionRecordLayout
  | effect => effectRecordLayout
  | assignment => assignmentLayout
  | effectReport => effectReportLayout
  | placementRequest => placementRequestLayout
  | plan => planLayout
  | candidate => candidateLayout
  | explanation => explanationLayout
  | planResult => planResultLayout

/-- Every decoder is canonical up to the high bytes of its function classes. -/
theorem canonical {b : Bounds} {n : Nat} (t : DomainType) :
    Canonical t.layout n (t.decode b) t.encode := by
  cases t with
  | provenance => exact canonical_provenance
  | freshness => exact canonical_freshness
  | incarnation => exact canonical_incarnation
  | fence => exact canonical_fence
  | epoch => exact canonical_epoch
  | binding => exact canonical_binding
  | demand => exact canonical_demand
  | capacity => exact canonical_capacity
  | semantics => exact canonical_knownSemantics
  | version => exact canonical_version
  | versionRange => exact canonical_versionRange
  | scopeSpec => exact canonical_scopeSpec
  | host => exact canonical_hostRecord
  | device => exact canonical_deviceRecord
  | link => exact canonical_link
  | topology => exact canonical_topology
  | function => exact canonical_function
  | capabilityRecord => exact canonical_capabilityRecord
  | capabilityReport => exact canonical_capabilityReport
  | policyRule => exact canonical_policyRule
  | policy => exact canonical_policy
  | authority => exact canonical_authority
  | observation => exact canonical_observation
  | observationReport => exact canonical_observationReport
  | transition => exact canonical_transitionRecord
  | effect => exact canonical_effectRecord
  | assignment => exact canonical_assignment
  | effectReport => exact canonical_effectReport
  | placementRequest => exact canonical_placementRequest
  | plan => exact canonical_plan
  | candidate => exact canonical_candidate
  | explanation => exact canonical_explanation
  | planResult => exact canonical_planResult

end DomainType

end OffloadFabric.Wire
