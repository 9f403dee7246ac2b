import OffloadFabric.Fabric.Runtime

/-!
# Revocation, re-authorization and effect reports

The operations on an existing assignment, `src/fabric.cpp:3752-3826,3866-3981,3998-4133`.
-/

namespace OffloadFabric

open Lib Lib.Fallible FabricM Wire

/-- The detail of a reused request identifier, `src/fabric.cpp:3775`. -/
def reusedDetail : String := "request identifier was reused with a different payload"

/-- The fingerprint of a revocation, `src/fabric.cpp:3763-3764`. -/
def RevokeRequest.fingerprint (r : RevokeRequest) : Digest :=
  sha256 (ascii "revoke:" ++ r.assignment.value ++ ascii ":" ++ ascii r.reason.token)

/-- The fingerprint of a re-authorization, `src/fabric.cpp:3877`. -/
def ReauthorizeRequest.fingerprint (r : ReauthorizeRequest) : Digest :=
  sha256 (ascii "reauthorize:" ++ r.assignment.value)

/-- The fingerprint of an effect report, `src/fabric.cpp:4009-4015`. -/
def EffectReport.fingerprint (b : Bounds) (r : EffectReport) : Digest :=
  match digestWith (encEffectReport r) b.maxCanonicalBytes.toNat with
  | .ok digest => digest
  | .error _ => .zero

namespace FabricState

/-- The authority check of a revocation, `src/fabric.cpp:3788-3806`. -/
def revocationChecks (s : FabricState) (request : RevokeRequest) (r : AssignmentRecord)
    (now : Micros) : Result Unit := do
  if r.state.holdsAuthority ∧ request.authority ≠ .empty then
    let missing : Error := ⟨.authorityMissing, "revocation authority grant does not exist"⟩
    let g ← present (s.authority.find? request.authority) missing
    let reason := authorityAdmits g
      ⟨.revoke, r.cls, r.kind, r.host, r.scopeId, {}, s.policyGeneration⟩ now
    require (reason = .ok) ⟨reason, "revocation is not authorized by the named grant"⟩

/-- The semantics a re-authorization asks its grant for, `src/fabric.cpp:3911-3914`. -/
def functionSemantics (s : FabricState) (id : FunctionId) : SemanticsMask :=
  match s.functions.find? id with
  | some f => f.required
  | none => {}

/-- The checks of a re-authorization, `src/fabric.cpp:3895-3933`: the target validity. -/
def reauthorizationChecks (s : FabricState) (request : ReauthorizeRequest)
    (r : AssignmentRecord) (now : Micros) : Result ReasonCode := do
  require (r.state = .suspended ∨ r.state = .degraded)
    ⟨.illegalStateTransition, "only a suspended or degraded assignment can be re-authorized"⟩
  require (request.authority ≠ .empty)
    ⟨.authorityMissing, "re-authorization requires a named grant"⟩
  let missing : Error := ⟨.authorityMissing, "re-authorization grant does not exist"⟩
  let g ← present (s.authority.find? request.authority) missing
  let reason := authorityAdmits g
    ⟨.reauthorize, r.cls, r.kind, r.host, r.scopeId, s.functionSemantics r.function,
      s.policyGeneration⟩ now
  require (reason = .ok) ⟨reason, "re-authorization grant does not admit this assignment"⟩
  let validity := s.assignmentTargetValidity r now false
  require (validity = .ok ∨ validity = .livenessDegraded)
    ⟨validity, "assignment is not valid against current evidence"⟩
  return validity

/-- The binding a re-authorization establishes, `src/fabric.cpp:3951-3962`. -/
def rebind (s : FabricState) (r : AssignmentRecord) : GenerationBinding :=
  let capability := s.lookupCapability r.device r.cls
  { r.binding with
    policy := (s.policy.map (·.generation)).getD r.binding.policy
    topology := (s.topology.map (·.generation)).getD r.binding.topology
    capability := (capability.map (·.generation)).getD r.binding.capability
    schema := (capability.map (·.schema)).getD r.binding.schema }

/-- The record of a re-authorized assignment, `src/fabric.cpp:3935-3970`; its history entry
carries the fresh token. -/
def reauthorized (s : FabricState) (b : Bounds) (r : AssignmentRecord)
    (authority : AuthorityId) (validity : ReasonCode) (lease : LeaseId) (attempt : AttemptId)
    (fence : FencingToken) (now : Micros) : AssignmentRecord :=
  let next : AssignmentState := if validity = .livenessDegraded then .degraded else .dispatched
  { r with lease, attempt, fence, authority, binding := s.rebind r }.enter b next .ok now

end FabricState

/-- The effect a report leaves on its assignment, `src/fabric.cpp:4062-4072`. -/
def EffectReport.effect (e : EffectReport) : EffectRecord where
  attempt := e.attempt
  fence := e.fence
  generation := e.generation
  incarnation := e.incarnation
  capabilityGeneration := e.capabilityGeneration
  outcome := e.outcome
  reason := e.detailReason
  observedAt := e.observedAt

/-- The fencing checks of `report_effect`, `src/fabric.cpp:4035-4056`. -/
def fencingChecks (s : FabricState) (e : EffectReport) (r : AssignmentRecord) : Result Unit := do
  require (e.fence.isSet ∧ e.fence = r.fence)
    ⟨.fencedAttempt, "effect report carries a fenced token"⟩
  require (e.fence.epoch = s.epoch.counter)
    ⟨.epochStale, "effect report belongs to a previous coordinator epoch"⟩
  require (e.attempt = r.attempt)
    ⟨.attemptMismatch, "effect report targets a different attempt"⟩
  require (e.generation = r.generation)
    ⟨.generationMismatch, "effect report targets a different assignment generation"⟩
  require (e.incarnation = r.incarnation)
    ⟨.incarnationMismatch, "effect report targets a different device incarnation"⟩
  require (e.capabilityGeneration = r.binding.capability)
    ⟨.generationMismatch, "effect report targets a different capability generation"⟩

/-- Whether an effect of the assignment already records the report, `src/fabric.cpp:4057-4063`. -/
def AssignmentRecord.recorded (r : AssignmentRecord) (e : EffectReport) : Bool :=
  r.effects.any fun existing ↦
    existing.attempt = e.attempt && existing.fence = e.fence && existing.outcome = e.outcome

/-- The transition of an outcome, `src/fabric.cpp:4079-4125`, entered after the trim. -/
def AssignmentRecord.applyOutcome (r : AssignmentRecord) (outcome : EffectOutcome)
    (now : Micros) : AssignmentRecord :=
  match outcome with
  | .applied => r.transition .appliedVerified .appliedVerified now
  | .rejected => r.transition .rejected .effectRejected now
  | .failed => r.transition .failed .effectFailed now
  | .unknown => r.transition r.state .effectUnknown now

/-- What an accepted report makes of its assignment, `src/fabric.cpp:4057-4126`: nothing when
the report is a duplicate. -/
def effectStep (b : Bounds) (e : EffectReport) (r : AssignmentRecord) (now : Micros) :
    Result (Option AssignmentRecord) := do
  if r.recorded e then return none
  require (r.state.isTerminal = false)
    ⟨.illegalStateTransition, "a terminal assignment cannot accept an effect report"⟩
  if e.outcome = .applied ∧ r.state = .appliedVerified then return none
  require (e.outcome = .applied → r.state = .dispatched ∨ r.state = .acknowledged ∨
      r.state = .degraded)
    ⟨.illegalStateTransition,
      "only a dispatched or acknowledged assignment can be verified as applied"⟩
  let received := AssignmentRecord.trimHistory b { r with effects := r.effects ++ [e.effect] }
  return some (received.applyOutcome e.outcome now)

namespace Fabric

/-- `Fabric::revoke`, `src/fabric.cpp:3752-3826`. -/
def revoke (c : FabricConfig) (request : RevokeRequest) (now : ClockReadings) :
    FabricM AssignmentRecord := do
  checkAccepting
  let s ← getState
  match cachedAnswer s request.requestId request.fingerprint reusedDetail with
  | some cached => liftExcept cached
  | none =>
      let r ← found (s.assignments.find? request.assignment)
        ⟨.notFound, "assignment does not exist"⟩
      if r.state = .revoked then return r
      check (request.cancel 0 = false) ⟨.cancelled, "revocation cancelled before commit"⟩
      liftExcept (s.revocationChecks request r (now 0))
      let revoked := r.enter c.bounds .revoked request.reason (now 0)
      storeAssignment c revoked request.requestId request.fingerprint .assignmentTransitioned
        (now 1)
      return revoked

/-- `Fabric::reauthorize`, `src/fabric.cpp:3866-3981`. -/
def reauthorize (c : FabricConfig) (request : ReauthorizeRequest) (now : ClockReadings) :
    FabricM AssignmentRecord := do
  checkAccepting
  let s ← getState
  match cachedAnswer s request.requestId request.fingerprint reusedDetail with
  | some cached => liftExcept cached
  | none =>
      let r ← found (s.assignments.find? request.assignment)
        ⟨.notFound, "assignment does not exist"⟩
      if r.state.holdsAuthority then return r
      let validity ← liftExcept (s.reauthorizationChecks request r (now 0))
      let lease ← issue FabricState.issueLease .lease
      let attempt ← issue FabricState.issueAttempt .attempt
      let fence ← issue FabricState.issueFence .fence
      let record := s.reauthorized c.bounds r request.authority validity lease attempt fence
        (now 0)
      storeAssignment c record request.requestId request.fingerprint .assignmentTransitioned
        (now 1)
      return record

/-- `Fabric::report_effect`, `src/fabric.cpp:3998-4133`. -/
def reportEffect (c : FabricConfig) (report : EffectReport) (now : ClockReadings) :
    FabricM AssignmentRecord := do
  checkAccepting
  let s ← getState
  let fingerprint := report.fingerprint c.bounds
  match cachedAnswer s report.requestId fingerprint reusedDetail with
  | some cached => liftExcept cached
  | none =>
      let r ← found (s.assignments.find? report.assignment)
        ⟨.notFound, "assignment does not exist"⟩
      liftExcept (fencingChecks s report r)
      match ← liftExcept (effectStep c.bounds report r (now 0)) with
      | none => return r
      | some record =>
          storeEffect c record report report.requestId fingerprint (now 1)
          return record

end Fabric

end OffloadFabric
