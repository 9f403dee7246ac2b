import OffloadFabric.Model.Assignment

/-!
# Requests, plans and explanations

The inputs and answers of the intent surface: `include/nof/fabric.hpp:85-172`,
`include/nof/explanation.hpp:18-87` and the request records of
`include/nof/assignment.hpp:198-224`. A cancel token is the sequence of its readings.
-/

namespace OffloadFabric

open Lib

/-- `CancelToken`, `include/nof/cancel.hpp:13-24`: the value of each successive reading of the
flag; a null token reads false throughout. -/
abbrev CancelToken := Nat → Bool

/-- The null token. -/
def CancelToken.never : CancelToken := fun _ ↦ false

/-- `PlacementRequest`, `include/nof/fabric.hpp:87-113`. -/
structure PlacementRequest where
  requestId : RequestId := .empty
  function : FunctionId
  cls : FunctionClass
  scope : ScopeSpec
  required : SemanticsMask := {}
  requiredVersion : SemanticVersion := {}
  exclusivity : Exclusivity := .exclusive
  demand : DemandVector := {}
  preferredDevices : List DeviceId := []
  preferredHosts : List HostId := []
  antiAffinityDevices : List DeviceId := []
  antiAffinityHosts : List HostId := []
  requiredLabels : List Bytes := []
  dependencies : List FunctionId := []
  minTopology : TopologyGeneration := 0
  minCapability : CapabilityGeneration := 0
  minPolicy : PolicyGeneration := 0
  allowHostFallback : Bool := false
  maxReassignments : UInt64 := 0
  requestReplacement : Bool := false
  deriving DecidableEq

/-- `AssignmentPlan`, `include/nof/fabric.hpp:118-139`. -/
structure AssignmentPlan where
  requestId : RequestId
  function : FunctionId
  cls : FunctionClass
  scope : ScopeSpec
  scopeId : ScopeId
  exclusivity : Exclusivity
  exclusiveKey : ExclusiveKeyMode
  mode : ExecutionMode
  device : DeviceId
  host : HostId
  kind : DeviceKind
  incarnation : IncarnationId
  demand : DemandVector
  binding : GenerationBinding
  authority : AuthorityId
  effectiveRequirement : SemanticsMask
  planDigest : Digest
  deriving DecidableEq

/-- The default-constructed plan that a refusal carries, `include/nof/fabric.hpp:118-139`. -/
def AssignmentPlan.unset : AssignmentPlan where
  requestId := .empty
  function := .empty
  cls := .routeLookup
  scope := {}
  scopeId := .empty
  exclusivity := .exclusive
  exclusiveKey := .perClass
  mode := .offloaded
  device := .empty
  host := .empty
  kind := .nic
  incarnation := ⟨0, .empty⟩
  demand := {}
  binding := {}
  authority := .empty
  effectiveRequirement := {}
  planDigest := .zero

/-- `Decision`, `include/nof/explanation.hpp:18-26`. -/
inductive Decision where
  | accept | refuse | replace | revoke | defer | suspend | noOp
  deriving DecidableEq, Repr

namespace Decision

/-- The durable number of a decision, `include/nof/explanation.hpp:19-25`. -/
def code : Decision → UInt8
  | .accept => 1
  | .refuse => 2
  | .replace => 3
  | .revoke => 4
  | .defer => 5
  | .suspend => 6
  | .noOp => 7

/-- The decision a raw number names, `src/explanation.cpp:10-28`. -/
def ofCode? : UInt8 → Option Decision
  | 1 => some .accept
  | 2 => some .refuse
  | 3 => some .replace
  | 4 => some .revoke
  | 5 => some .defer
  | 6 => some .suspend
  | 7 => some .noOp
  | _ => none

instance : Coded Decision UInt8 where
  code := code
  ofCode? := ofCode?
  ofCode?_code c := by cases c <;> rfl

end Decision

/-- `CandidateEvaluation`, `include/nof/explanation.hpp:34-57`. -/
structure CandidateEvaluation where
  device : DeviceId
  host : HostId
  kind : DeviceKind
  incarnation : IncarnationId
  capabilityGeneration : CapabilityGeneration := 0
  eligible : Bool := false
  verdict : MatchVerdict := .missing
  reason : ReasonCode := .evidenceMissing
  contributing : List ReasonCode := []
  mode : ExecutionMode := .offloaded
  rank : UInt64 := 0
  offloadRank : UInt32 := 0
  kindRank : UInt32 := 0
  localityRank : UInt32 := 0
  utilizationPpm : UInt64 := 0
  evaluationDigest : Digest := .zero
  deriving DecidableEq

/-- `Explanation`, `include/nof/explanation.hpp:59-87`. -/
structure Explanation where
  decision : Decision := .refuse
  primaryReason : ReasonCode := .ok
  reasons : List ReasonCode := []
  requestId : RequestId := .empty
  function : FunctionId := .empty
  cls : FunctionClass := .routeLookup
  scope : ScopeSpec := {}
  scopeId : ScopeId := .empty
  exclusivity : Exclusivity := .exclusive
  mode : ExecutionMode := .offloaded
  binding : GenerationBinding := {}
  authority : AuthorityId := .empty
  lease : LeaseId := 0
  fence : FencingToken := ⟨0, 0⟩
  attempt : AttemptId := 0
  assignment : AssignmentId := .empty
  replaced : AssignmentId := .empty
  selectedDevice : DeviceId := .empty
  candidates : List CandidateEvaluation := []
  candidatesTotal : UInt64 := 0
  candidatesTruncated : Bool := false
  inputDigest : Digest := .zero
  decisionDigest : Digest := .zero
  deriving DecidableEq

/-- `PlanResult`, `include/nof/fabric.hpp:141-151`. -/
structure PlanResult where
  decision : Decision := .refuse
  primaryReason : ReasonCode := .noEligibleTarget
  candidates : List CandidateEvaluation := []
  candidatesTotal : UInt64 := 0
  candidatesTruncated : Bool := false
  plan : AssignmentPlan := .unset
  explanation : Explanation := {}
  deriving DecidableEq

/-- `ApplyOptions`, `include/nof/fabric.hpp:153-159`. -/
structure ApplyOptions where
  requestId : RequestId := .empty
  cancel : CancelToken := .never
  allowReplacement : Bool := false

/-- `ReplaceRequest`, `include/nof/fabric.hpp:161-166`. -/
structure ReplaceRequest where
  requestId : RequestId := .empty
  current : AssignmentId
  placement : PlacementRequest
  cancel : CancelToken := .never

/-- `RevokeRequest`, `include/nof/assignment.hpp:198-204`. -/
structure RevokeRequest where
  requestId : RequestId := .empty
  assignment : AssignmentId
  reason : ReasonCode := .revoked
  authority : AuthorityId := .empty
  cancel : CancelToken := .never

/-- `ReauthorizeRequest`, `include/nof/assignment.hpp:206-211`; nothing reads its token. -/
structure ReauthorizeRequest where
  requestId : RequestId := .empty
  assignment : AssignmentId
  authority : AuthorityId := .empty
  cancel : CancelToken := .never

/-- `RevalidationReport`, `include/nof/assignment.hpp:213-222`, the counters it fills. -/
structure RevalidationReport where
  checked : Nat := 0
  suspended : Nat := 0
  degraded : Nat := 0
  unchanged : Nat := 0
  deriving DecidableEq

end OffloadFabric
