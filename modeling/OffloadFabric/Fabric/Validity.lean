import OffloadFabric.Fabric.State

/-!
# Validity of an assignment against current evidence

`assignment_target_validity` and `assignment_validity` of `src/fabric.cpp:2016-2147` with the
freshness an assignment inherits (`src/fabric.cpp:3588-3617`). A verdict is the first check
that fails, and `ok` when none does.
-/

namespace OffloadFabric

open Lib

/-- The verdict of a sequence of checks. -/
def verdict (checks : Except ReasonCode Unit) : ReasonCode :=
  match checks with
  | .ok _ => .ok
  | .error reason => reason

/-- `authority_recheck`, `src/fabric.cpp:1075-1083`: the use budget was consumed at placement. -/
def authorityRecheck (g : AuthorityGrant) (i : Intent) (now : Micros) : ReasonCode :=
  authorityAdmits { g with used := 0, maxUses := 0 } i now

/-- A recheck passes for a grant that admits an intent of the same target, where the grant places
and its ceiling covers the semantics rechecked. -/
theorem authorityRecheck_eq_ok {g : AuthorityGrant} {i : Intent} {now : Micros}
    {semantics : SemanticsMask} (h : g.Admits i now) :
    authorityRecheck g { i with action := .place, semantics } now = .ok ↔
      .place ∈ g.actions ∧ (g.semanticsCeiling.isEmpty = false →
        semantics.isSubsetOf g.semanticsCeiling = true) := by
  unfold authorityRecheck
  rw [authorityAdmits_eq_ok]
  constructor
  · intro h'
    exact ⟨h'.action, h'.ceiling⟩
  · rintro ⟨hplace, hceiling⟩
    exact ⟨h.held, h.policy, h.unexpired, h.fresh, fun hbudget ↦ hbudget.1 rfl, hplace, h.cls,
      h.kind, h.host, h.scope, hceiling⟩

namespace FabricState

/-- The topology checks, `src/fabric.cpp:2018-2037`. -/
def topologyChecks (s : FabricState) (r : AssignmentRecord) (now : Micros) :
    Except ReasonCode Unit := do
  let t ← present s.topology .topologyStale
  require (s.evidenceCurrent t.provenance.source .topology t.provenance.sequence)
    .evidenceSuperseded
  require (¬ t.freshness.isExpired now) .topologyStale
  require (¬ (Gen.isSet r.binding.topology ∧ t.generation < r.binding.topology))
    .generationMismatch
  let d ← present (t.findDevice r.device) .targetDisappeared
  require (d.decommissioned = false) .targetDisappeared
  require (d.incarnation = r.incarnation) .incarnationMismatch

/-- The policy checks, `src/fabric.cpp:2038-2057`. -/
def policyChecks (s : FabricState) (r : AssignmentRecord) (now : Micros) :
    Except ReasonCode PolicyRule := do
  let p ← present s.policy .policyStale
  require (s.evidenceCurrent p.provenance.source .policy p.provenance.sequence)
    .evidenceSuperseded
  require (¬ p.freshness.isExpired now) .policyStale
  let rule ← present (p.findRule r.cls) .refusedByPolicy
  require (r.kind ∈ rule.allowedKinds) .deviceKindNotPermitted
  require (¬ (r.kind = .hostStack ∧ rule.allowHostFallback = false)) .hostFallbackNotPermitted
  return rule

/-- The capability checks, `src/fabric.cpp:2058-2081`. -/
def capabilityChecks (s : FabricState) (r : AssignmentRecord) (now : Micros)
    (bindingGenerations : Bool) : Except ReasonCode Unit := do
  if Gen.isSet r.binding.capability then
    let c ← present (s.lookupCapability r.device r.cls) .capabilityStale
    require (¬ (bindingGenerations ∧ c.generation ≠ r.binding.capability)) .capabilityStale
    require (s.evidenceCurrent c.provenance.source .capability c.provenance.sequence)
      .evidenceSuperseded
    require (¬ c.freshness.isExpired now) .capabilityStale
    match s.functions.find? r.function with
    | some f =>
        let m := matchCapability f c r.incarnation now
        require m.eligible m.reason
    | none => pure ()

/-- The liveness checks, `src/fabric.cpp:2082-2105`; an absent observation has no device. -/
def livenessChecks (s : FabricState) (r : AssignmentRecord) (now : Micros) :
    Except ReasonCode Unit := do
  let o ← present (s.observations.find? r.device) .livenessUnknown
  require o.device.isSet .livenessUnknown
  require (o.incarnation = r.incarnation) .incarnationMismatch
  require (s.evidenceCurrent o.provenance.source .observation o.provenance.sequence)
    .evidenceSuperseded
  require (¬ o.freshness.isExpired now) .livenessStale
  match o.liveness with
  | .dead => throw .livenessDead
  | .degraded => throw .livenessDegraded
  | .unknown => throw .livenessUnknown
  | .alive => pure ()

/-- `assignment_target_validity`, `src/fabric.cpp:2016-2108`. -/
def targetChecks (s : FabricState) (r : AssignmentRecord) (now : Micros)
    (bindingGenerations : Bool) : Except ReasonCode Unit := do
  s.topologyChecks r now
  let rule ← s.policyChecks r now
  s.capabilityChecks r now bindingGenerations
  if rule.requireFreshObservation then
    s.livenessChecks r now

/-- The semantics a recheck asks a grant for, `src/fabric.cpp:2135-2139`. -/
def recheckSemantics (s : FabricState) (r : AssignmentRecord) : SemanticsMask :=
  match s.functions.find? r.function, s.policy.bind (·.findRule r.cls) with
  | some f, some rule => f.required.unite rule.required
  | _, _ => {}

/-- The grant checks, `src/fabric.cpp:2126-2146`. -/
def grantChecks (s : FabricState) (r : AssignmentRecord) (now : Micros) :
    Except ReasonCode Unit := do
  if r.authority.isSet then
    let g ← present (s.authority.find? r.authority) .authorityMissing
    require (s.evidenceCurrent g.provenance.source .authority g.provenance.sequence)
      .evidenceSuperseded
    let reason := authorityRecheck g
      ⟨.place, r.cls, r.kind, r.host, r.scopeId, s.recheckSemantics r, s.policyGeneration⟩ now
    require (reason = .ok) reason

/-- The checks of an assignment beyond its target, `src/fabric.cpp:2118-2146`. -/
def bindingChecks (s : FabricState) (r : AssignmentRecord) (now : Micros) :
    Except ReasonCode Unit := do
  require (¬ (Gen.isSet r.binding.policy ∧ s.policyGeneration ≠ r.binding.policy)) .policyStale
  require (¬ (r.fence.isSet ∧ r.fence.epoch ≠ s.epoch.counter)) .leaseExpired
  s.grantChecks r now

/-- `assignment_target_validity`, `src/fabric.cpp:2016-2108`. -/
def assignmentTargetValidity (s : FabricState) (r : AssignmentRecord) (now : Micros)
    (bindingGenerations : Bool) : ReasonCode :=
  verdict (s.targetChecks r now bindingGenerations)

/-- `assignment_validity`, `src/fabric.cpp:2110-2147`. -/
def assignmentValidity (s : FabricState) (r : AssignmentRecord) (now : Micros) : ReasonCode :=
  verdict (s.targetChecks r now true >>= fun _ ↦ s.bindingChecks r now)

/-- The evidence whose freshness an assignment inherits, `src/fabric.cpp:3600-3614`. -/
def freshnessSources (s : FabricState) (d : DeviceId) (cls : FunctionClass) : List Freshness :=
  (s.topology.map (·.freshness)).toList ++ (s.policy.map (·.freshness)).toList ++
    ((s.lookupCapability d cls).map (·.freshness)).toList ++
    ((s.observations.find? d).map (·.freshness)).toList

/-- `consider`, `src/fabric.cpp:3592-3599`. -/
def considerFreshness (limit : Micros) (f : Freshness) : Micros :=
  if ¬ f.isSet then limit
  else if limit = 0 ∨ f.validUntil < limit then f.validUntil
  else limit

/-- `effective_freshness_locked`, `src/fabric.cpp:3588-3617`. -/
def effectiveFreshness (s : FabricState) (d : DeviceId) (cls : FunctionClass) (now : Micros) :
    Freshness :=
  let limit := (s.freshnessSources d cls).foldl considerFreshness 0
  ⟨now, if limit = 0 then now else limit⟩

end FabricState

end OffloadFabric
