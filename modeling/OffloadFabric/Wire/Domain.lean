import OffloadFabric.Wire.RoundTrip

/-!
# The domain types and their codecs

The public pairs `encode_*` and `decode_*` of `src/wire.cpp:1045-1769` as one family, so that a
law of the wire format is stated once for every type it carries.
-/

namespace OffloadFabric.Wire

open Lib

/-- The types with a codec of their own, `include/nof/wire.hpp:25-131`. -/
inductive DomainType where
  | provenance | freshness | incarnation | fence | epoch | binding | demand | capacity | semantics
  | version | versionRange | scopeSpec | host | device | link | topology | function
  | capabilityRecord | capabilityReport | policyRule | policy | authority | observation
  | observationReport | transition | effect | assignment | effectReport | placementRequest
  | plan | candidate | explanation | planResult
  deriving DecidableEq, Repr

namespace DomainType

/-- The values of a domain type. -/
abbrev Value : DomainType → Type
  | provenance => Provenance
  | freshness => Freshness
  | incarnation => IncarnationId
  | fence => FencingToken
  | epoch => CoordinatorEpoch
  | binding => GenerationBinding
  | demand => DemandVector
  | capacity => CapacityVector
  | semantics => SemanticsMask
  | version => SemanticVersion
  | versionRange => VersionRange
  | scopeSpec => ScopeSpec
  | host => HostRecord
  | device => DeviceRecord
  | link => LinkRecord
  | topology => TopologySnapshot
  | function => FunctionDescriptor
  | capabilityRecord => CapabilityRecord
  | capabilityReport => CapabilityReport
  | policyRule => PolicyRule
  | policy => PolicySnapshot
  | authority => AuthorityGrant
  | observation => DeviceObservation
  | observationReport => ObservationReport
  | transition => TransitionRecord
  | effect => EffectRecord
  | assignment => AssignmentRecord
  | effectReport => EffectReport
  | placementRequest => PlacementRequest
  | plan => AssignmentPlan
  | candidate => CandidateEvaluation
  | explanation => Explanation
  | planResult => PlanResult

/-- The public `encode_*` of a domain type. -/
def encode : (t : DomainType) → t.Value → Writer
  | provenance => encProvenance
  | freshness => encFreshness
  | incarnation => encIncarnation
  | fence => encFence
  | epoch => encEpoch
  | binding => encBinding
  | demand => encDemand
  | capacity => encCapacity
  | semantics => Writer.semantics
  | version => encVersion
  | versionRange => encVersionRange
  | scopeSpec => encScopeSpec
  | host => encHostRecord
  | device => encDeviceRecord
  | link => encLink
  | topology => encTopology
  | function => encFunction
  | capabilityRecord => encCapabilityRecord
  | capabilityReport => encCapabilityReport
  | policyRule => encPolicyRule
  | policy => encPolicy
  | authority => encAuthority
  | observation => encObservation
  | observationReport => encObservationReport
  | transition => encTransitionRecord
  | effect => encEffectRecord
  | assignment => encAssignment
  | effectReport => encEffectReport
  | placementRequest => encPlacementRequest
  | plan => encPlan
  | candidate => encCandidate
  | explanation => encExplanation
  | planResult => encPlanResult

/-- The public `decode_*` of a domain type under configured bounds. -/
def decode (b : Bounds) : (t : DomainType) → Reader t.Value
  | provenance => decProvenance
  | freshness => decFreshness
  | incarnation => decIncarnation
  | fence => decFence
  | epoch => decEpoch
  | binding => decBinding
  | demand => decDemand
  | capacity => decCapacity
  | semantics => decSemantics
  | version => decVersion
  | versionRange => decVersionRange
  | scopeSpec => decScopeSpec
  | host => decHostRecord b
  | device => decDeviceRecord b
  | link => decLink
  | topology => decTopology b
  | function => decFunction b
  | capabilityRecord => decCapabilityRecord
  | capabilityReport => decCapabilityReport b
  | policyRule => decPolicyRule
  | policy => decPolicy b
  | authority => decAuthority
  | observation => decObservation
  | observationReport => decObservationReport b
  | transition => decTransitionRecord
  | effect => decEffectRecord
  | assignment => decAssignment b
  | effectReport => decEffectReport
  | placementRequest => decPlacementRequest b
  | plan => decPlan
  | candidate => decCandidate b
  | explanation => decExplanation b
  | planResult => decPlanResult b

/-- The values within a decoder's bounds: its texts within the text limit `n`, its collections
within the counts checked, and its labels canonical, as they are written as tokens. -/
def Readable (b : Bounds) (n : Nat) : (t : DomainType) → t.Value → Prop
  | provenance, v => v.source.value.length ≤ n
  | freshness, _ => True
  | incarnation, v => v.boot.value.length ≤ n
  | fence, _ => True
  | epoch, v => v.boot.value.length ≤ n
  | binding, _ => True
  | demand, _ => True
  | capacity, _ => True
  | semantics, v => v.bits >>> semanticCount = 0
  | version, _ => True
  | versionRange, _ => True
  | scopeSpec, v => TextsFit n v.texts
  | host, v => v.Readable b n
  | device, v => v.Readable b n
  | link, v => TextsFit n [v.a.value, v.b.value]
  | topology, v => v.Readable b n
  | function, v => v.Readable b n
  | capabilityRecord, v => v.Readable n
  | capabilityReport, v => v.Readable b n
  | policyRule, v => v.allowedKinds.length ≤ 8
  | policy, v => v.Readable b n
  | authority, v => v.Readable n
  | observation, v => v.Readable n
  | observationReport, v => v.Readable b n
  | transition, _ => True
  | effect, v => v.incarnation.boot.value.length ≤ n
  | assignment, v => v.Readable b n
  | effectReport, v => TextsFit n v.texts
  | placementRequest, v => v.Readable b n
  | plan, v => TextsFit n v.texts
  | candidate, v => v.Readable b n
  | explanation, v => v.Readable b n
  | planResult, v => v.Readable b n

/-- Every pair of codecs is a round trip on exactly the readable values. -/
theorem roundTrip {b : Bounds} {cw n : Nat} (t : DomainType) (v : t.Value) :
    Coder.RoundTrip (t.encode v) cw (t.decode b) n v (t.Readable b n v) := by
  cases t with
  | provenance => exact roundTrip_provenance v
  | freshness => exact roundTrip_freshness v
  | incarnation => exact roundTrip_incarnation v
  | fence => exact roundTrip_fence v
  | epoch => exact roundTrip_epoch v
  | binding => exact roundTrip_binding v
  | demand => exact roundTrip_demand v
  | capacity => exact roundTrip_capacity v
  | semantics => exact roundTrip_knownSemantics v
  | version => exact roundTrip_version v
  | versionRange => exact roundTrip_versionRange v
  | scopeSpec => exact roundTrip_scopeSpec v
  | host => exact roundTrip_hostRecord v
  | device => exact roundTrip_deviceRecord v
  | link => exact roundTrip_link v
  | topology => exact roundTrip_topology v
  | function => exact roundTrip_function v
  | capabilityRecord => exact roundTrip_capabilityRecord v
  | capabilityReport => exact roundTrip_capabilityReport v
  | policyRule => exact roundTrip_policyRule v
  | policy => exact roundTrip_policy v
  | authority => exact roundTrip_authority v
  | observation => exact roundTrip_observation v
  | observationReport => exact roundTrip_observationReport v
  | transition => exact roundTrip_transitionRecord v
  | effect => exact roundTrip_effectRecord v
  | assignment => exact roundTrip_assignment v
  | effectReport => exact roundTrip_effectReport v
  | placementRequest => exact roundTrip_placementRequest v
  | plan => exact roundTrip_plan v
  | candidate => exact roundTrip_candidate v
  | explanation => exact roundTrip_explanation v
  | planResult => exact roundTrip_planResult v

end DomainType

end OffloadFabric.Wire
