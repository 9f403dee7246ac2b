import OffloadFabric.Fabric.Runtime

/-!
# Authorization and application of placements

`src/fabric.cpp:3423-3750,3828-3864`: `authorize_locked` checks a plan again against current
state before anything is issued, `apply_locked` plans and authorizes, and `apply_plan` and
`replace` enter at either.
-/

namespace OffloadFabric

open Lib Lib.Fallible FabricM Wire

/-- What the checks of an authorization establish, `src/fabric.cpp:3425-3535`. -/
structure Authorization where
  scope : ScopeId
  replacing : AssignmentId
  synthetic : PlacementRequest
  capability : Option CapabilityRecord

/-- The digest a plan must carry, `src/fabric.cpp:3428-3438`. -/
def AssignmentPlan.digest (b : Bounds) (p : AssignmentPlan) : Result Digest := do
  let out ← (encPlan { p with planDigest := .zero }).encode b.maxCanonicalBytes.toNat
  return sha256 out

namespace FabricState

/-- The requirement of a plan, `src/fabric.cpp:3486-3494`. -/
def authorizedFunction (s : FabricState) (p : AssignmentPlan) : FunctionDescriptor where
  id := p.function
  cls := p.cls
  required := p.effectiveRequirement
  requiredVersion :=
    match s.functions.find? p.function with
    | some f => f.requiredVersion
    | none => {}

/-- The request a plan is evaluated as, `src/fabric.cpp:3495-3505`. -/
def syntheticRequest (s : FabricState) (p : AssignmentPlan) : PlacementRequest where
  requestId := p.requestId
  function := p.function
  cls := p.cls
  scope := p.scope
  required := p.effectiveRequirement
  requiredVersion := (s.authorizedFunction p).requiredVersion
  exclusivity := p.exclusivity
  demand := p.demand
  allowHostFallback := p.mode == .hostFallback

/-- The checks of a plan against current evidence, `src/fabric.cpp:3439-3481`. -/
def planEvidenceChecks (s : FabricState) (b : Bounds) (p : AssignmentPlan) :
    Result (ScopeId × PolicySnapshot × DeviceRecord × PolicyRule) := do
  let digest ← p.digest b
  require (digest = p.planDigest)
    ⟨.planSuperseded, "plan digest does not match the plan contents"⟩
  let derived ← scopeIdentity p.scope
  require (p.scopeId = derived)
    ⟨.malformedInput, "plan scope identity does not re-derive from its scope specification"⟩
  let missing : Error := ⟨.evidenceMissing, "placement requires current topology and policy"⟩
  let t ← present s.topology missing
  let policy ← present s.policy missing
  require (t.generation = p.binding.topology)
    ⟨.planSuperseded, "topology generation changed after the plan was produced"⟩
  require (policy.generation = p.binding.policy)
    ⟨.planSuperseded, "policy generation changed after the plan was produced"⟩
  let gone : Error := ⟨.targetDisappeared, "plan target is not present in the topology"⟩
  let device ← present (t.findDevice p.device) gone
  require (device.decommissioned = false) gone
  require (device.incarnation = p.incarnation)
    ⟨.incarnationMismatch, "plan target incarnation changed since the plan was produced"⟩
  if Gen.isSet p.binding.capability then
    let stale : Error := ⟨.capabilityStale, "plan capability evidence is gone"⟩
    let capability ← present (s.lookupCapability p.device p.cls) stale
    require (capability.generation = p.binding.capability)
      ⟨.planSuperseded, "capability generation changed after the plan was produced"⟩
  let refused : Error :=
    ⟨.refusedByPolicy, "policy carries no rule for this function class"⟩
  let rule ← present (policy.findRule p.cls) refused
  return (derived, policy, device, rule)

/-- The holder an authorization replaces and its budget, `src/fabric.cpp:3462-3484`. -/
def replacementChecks (s : FabricState) (p : AssignmentPlan) (derived : ScopeId)
    (rule : PolicyRule) (allowReplacement : Bool) (now : Micros) : Result AssignmentId := do
  if p.exclusivity = .exclusive then
    match s.exclusiveConflict derived p.cls p.exclusiveKey .empty with
    | none => return .empty
    | some holder =>
        require allowReplacement
          ⟨.exclusiveConflict,
            "another assignment already holds exclusive authority over this scope"⟩
        require (s.reassignmentCount ⟨derived, p.cls⟩ now < rule.maxReassignmentsPerScope.toNat)
          ⟨.reassignmentBudgetExhausted,
            "the bounded reassignment budget for this scope is exhausted"⟩
        return holder
  else return .empty

/-- The authority checks of an authorization, `src/fabric.cpp:3516-3535`. -/
def placementAuthorityChecks (s : FabricState) (p : AssignmentPlan) (policy : PolicySnapshot)
    (rule : PolicyRule) (derived : ScopeId) (now : Micros) : Result Unit := do
  if rule.requireAuthority then
    let intent : Intent := ⟨.place, p.cls, p.kind, p.host, derived,
      p.effectiveRequirement.unite rule.required, policy.generation⟩
    if p.authority.isSet then
      let missing : Error := ⟨.authorityMissing, "plan authority grant no longer exists"⟩
      let g ← present (s.authority.find? p.authority) missing
      let reason := authorityAdmits g intent now
      require (reason = .ok) ⟨reason, "plan authority no longer authorizes this placement"⟩
    else
      require (s.findAdmittingAuthority intent now ≠ .empty)
        ⟨.authorityMissing, "no current authority authorizes this placement"⟩

/-- The checks of `authorize_locked`, `src/fabric.cpp:3423-3535`. -/
def authorizeChecks (s : FabricState) (b : Bounds) (p : AssignmentPlan)
    (allowReplacement : Bool) (now : Micros) : Result Authorization := do
  let (derived, policy, device, rule) ← s.planEvidenceChecks b p
  let replacing ← s.replacementChecks p derived rule allowReplacement now
  let synthetic := s.syntheticRequest p
  let evaluation := EvaluationContext.evaluateDevice
    ⟨s, now, s.authorizedFunction p, rule, policy, synthetic, derived, replacing⟩ device
  require (evaluation.eligible = true)
    ⟨evaluation.reason, "plan target is no longer eligible"⟩
  s.placementAuthorityChecks p policy rule derived now
  return ⟨derived, replacing, synthetic, s.lookupCapability p.device p.cls⟩

end FabricState

/-- The record of a new assignment, `src/fabric.cpp:3541-3586`. -/
def newAssignment (c : FabricConfig) (s : FabricState) (p : AssignmentPlan) (auth : Authorization)
    (requestId : RequestId) (id : AssignmentId) (lease : LeaseId) (attempt : AttemptId)
    (fence : FencingToken) (now : Micros) : AssignmentRecord :=
  let reason := if p.mode = .hostFallback then ReasonCode.hostFallbackApplied else .ok
  AssignmentRecord.trimHistory c.bounds {
    id, lease, attempt, fence
    generation := 1
    function := p.function
    cls := p.cls
    scope := p.scope
    scopeId := auth.scope
    exclusivity := p.exclusivity
    exclusiveKey := p.exclusiveKey
    mode := p.mode
    state := .dispatched
    device := p.device
    host := p.host
    kind := p.kind
    incarnation := p.incarnation
    demand := p.demand
    binding := { p.binding with
      assignment := 1
      schema := match auth.capability with
        | some capability => capability.schema
        | none => p.binding.schema }
    authority := p.authority
    requestFingerprint := if requestId = .empty then p.planDigest
      else fingerprintOf c.bounds auth.synthetic
    provenance := ⟨.empty, 0⟩
    freshness := s.effectiveFreshness p.device p.cls now
    stateReason := reason
    createdAt := now
    updatedAt := now
    history := [⟨.planned, .authorized, .ok, now, fence⟩,
      ⟨.authorized, .dispatched, reason, now, fence⟩]
    effects := [] }

namespace Fabric

/-- The supersession of a replaced holder, `src/fabric.cpp:3554-3574`. -/
def supersede (c : FabricConfig) (replacing : AssignmentId) (k : ExclusivityKey) (now : Micros) :
    FabricM Unit := do
  if replacing ≠ .empty then
    let s ← getState
    match s.assignments.find? replacing with
    | none => return ()
    | some previous =>
        storeAssignment c (previous.enter c.bounds .superseded .superseded now) .empty .zero
          .assignmentTransitioned now
        noteReassignment c k now

/-- `authorize_locked`, `src/fabric.cpp:3423-3586`, with one clock reading for the decision and
one for the idempotency entry. -/
def authorizeLocked (c : FabricConfig) (p : AssignmentPlan) (options : ApplyOptions)
    (polls : Nat) (now stored : Micros) : FabricM AssignmentRecord := do
  let s ← getState
  let auth ← liftExcept (s.authorizeChecks c.bounds p options.allowReplacement now)
  check (options.cancel polls = false) ⟨.cancelled, "placement cancelled before commit"⟩
  let id ← issue FabricState.issueAssignmentId .assignment
  let lease ← issue FabricState.issueLease .lease
  let attempt ← issue FabricState.issueAttempt .attempt
  let fence ← issue FabricState.issueFence .fence
  let record := newAssignment c s p auth options.requestId id lease attempt fence now
  supersede c auth.replacing ⟨auth.scope, p.cls⟩ now
  let fingerprint := if options.requestId = .empty then Digest.zero
    else fingerprintOf c.bounds auth.synthetic
  storeAssignment c record options.requestId fingerprint .assignmentCreated stored
  return record

/-- A refusal is recorded for its request before it is returned, `src/fabric.cpp:3667-3674`. -/
def refusing (c : FabricConfig) (id : RequestId) (fingerprint : Digest) (now : Micros)
    (x : FabricM AssignmentRecord) : FabricM AssignmentRecord :=
  tryCatch x fun e ↦ do
    recordRefusal c id fingerprint e now
    throw e

/-- The options a placement is authorized under, `src/fabric.cpp:3657-3664`. -/
def effectiveOptions (request : PlacementRequest) (options : ApplyOptions)
    (planned : PlanResult) : ApplyOptions :=
  { options with
    allowReplacement := options.allowReplacement || request.requestReplacement ||
      planned.decision == .replace
    requestId := if request.requestId ≠ .empty then request.requestId else options.requestId }

/-- `apply_locked`, `src/fabric.cpp:3618-3676`. -/
def applyLocked (c : FabricConfig) (request : PlacementRequest) (options : ApplyOptions)
    (now : ClockReadings) : FabricM AssignmentRecord := do
  check (options.cancel 0 = false) ⟨.cancelled, "placement cancelled before planning"⟩
  let s ← getState
  let fingerprint := fingerprintOf c.bounds request
  match cachedAnswer s request.requestId fingerprint
      "request identifier was reused with a different payload" with
  | some cached => liftExcept cached
  | none =>
      let planned ← liftExcept (s.planLocked c.bounds request (options.cancel 1) (now 1))
      if planned.decision = .refuse then
        let e : Error := ⟨planned.primaryReason, "placement refused"⟩
        recordRefusal c request.requestId fingerprint e (now 0)
        throw e
      else
        refusing c request.requestId fingerprint (now 0)
          (authorizeLocked c planned.plan (effectiveOptions request options planned) 2 (now 2)
            (now 3))

/-- `Fabric::apply`, `src/fabric.cpp:3692-3704`. -/
def apply (c : FabricConfig) (request : PlacementRequest) (options : ApplyOptions)
    (now : ClockReadings) : FabricM AssignmentRecord := do
  checkAccepting
  applyLocked c request options now

/-- The options a plan is authorized under, `src/fabric.cpp:3734-3735`. -/
def planOptions (options : ApplyOptions) (planned : PlanResult) : ApplyOptions :=
  { options with allowReplacement := options.allowReplacement || planned.decision == .replace }

/-- `Fabric::apply_plan`, `src/fabric.cpp:3706-3750`. -/
def applyPlan (c : FabricConfig) (planned : PlanResult) (options : ApplyOptions)
    (now : ClockReadings) : FabricM AssignmentRecord := do
  checkAccepting
  check (planned.decision ≠ .refuse)
    ⟨planned.primaryReason, "refused plans cannot be applied"⟩
  let s ← getState
  match cachedAnswer s options.requestId planned.plan.planDigest
      "request identifier was reused with a different plan" with
  | some cached => liftExcept cached
  | none =>
      refusing c options.requestId planned.plan.planDigest (now 1)
        (authorizeLocked c planned.plan (planOptions options planned) 0 (now 0) (now 1))

/-- The placement a replacement asks for, `src/fabric.cpp:3843-3856`. -/
def replacementPlacement (request : ReplaceRequest) (current : AssignmentRecord) :
    PlacementRequest :=
  let placement := { request.placement with
    requestReplacement := true
    requestId := if request.placement.requestId = .empty then request.requestId
      else request.placement.requestId }
  if request.placement.function = .empty then
    { placement with
      function := current.function
      cls := current.cls
      scope := current.scope
      exclusivity := current.exclusivity
      demand := current.demand }
  else placement

/-- The options a replacement applies under, `src/fabric.cpp:3857-3860`. -/
def replacementOptions (request : ReplaceRequest) : ApplyOptions where
  requestId := request.requestId
  cancel := request.cancel
  allowReplacement := true

/-- `Fabric::replace`, `src/fabric.cpp:3828-3864`. -/
def replace (c : FabricConfig) (request : ReplaceRequest) (now : ClockReadings) :
    FabricM AssignmentRecord := do
  checkAccepting
  let s ← getState
  let current ← found (s.assignments.find? request.current)
    ⟨.notFound, "assignment to replace does not exist"⟩
  applyLocked c (replacementPlacement request current) (replacementOptions request) now

end Fabric

end OffloadFabric
