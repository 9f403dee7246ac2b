import OffloadFabric.Fabric.Validity
import OffloadFabric.Fabric.Index
import OffloadFabric.Wire.Records

/-!
# Candidate evaluation and planning

`src/fabric.cpp:1008-1403,2281-2560`: every device of the topology is evaluated against the
request, the policy rule and the evidence; the best eligible candidate becomes the plan. An
evaluation that refuses carries what it had established so far.
-/

namespace OffloadFabric

open Lib Wire

/-- `kind_rank`, `src/fabric.cpp:1011-1023`. -/
def kindRank : DeviceKind → UInt32
  | .dpu => 0
  | .smartNic => 1
  | .nic => 2
  | .hostStack => 3

/-- `utilization_ppm`, `src/fabric.cpp:1041-1058`; the totals wrap. -/
def utilizationPpm (used : DemandVector) (capacity : CapacityVector) : UInt64 :=
  let usedTotal := used.packetsPerSecond + used.flows + used.queues + used.memory
  let capacityTotal := capacity.packetsPerSecond + capacity.flows + capacity.queues +
    capacity.memory
  if capacityTotal = 0 then if usedTotal = 0 then 0 else 1000000
  else if usedTotal = 0 then 0
  else match checkedMul usedTotal 1000000 with
    | none => 1000000
    | some scaled => min (scaled / capacityTotal) 1000000

/-- `fingerprint_of`, `src/fabric.cpp:1435-1445`. -/
def fingerprintOf (b : Bounds) (r : PlacementRequest) : Digest :=
  match digestWith (encPlacementRequest r) b.maxCanonicalBytes.toNat with
  | .ok digest => digest
  | .error _ => .zero

namespace FabricState

/-- `scope_has_exclusive_conflict`, `src/fabric.cpp:1085-1119`: the conflicting holder. -/
def exclusiveConflict (s : FabricState) (scope : ScopeId) (cls : FunctionClass)
    (mode : ExclusiveKeyMode) (replacing : AssignmentId) : Option AssignmentId :=
  if scope = .empty then none
  else match s.exclusiveByScope[scope]?.filter (· ≠ replacing) with
    | some holder => some holder
    | none =>
        match mode with
        | .perClass => s.exclusiveByClass[ExclusivityKey.mk scope cls]?.filter (· ≠ replacing)
        | .perScope =>
            -- a whole-scope claim conflicts with every per-class claim on that scope
            (s.exclusiveByClass.toList.find? fun e ↦ e.1.scope = scope ∧ e.2 ≠ replacing).map
              Prod.snd

/-- `find_admitting_authority`, `src/fabric.cpp:2281-2298`: the first grant that admits. -/
def findAdmittingAuthority (s : FabricState) (i : Intent) (now : Micros) : AuthorityId :=
  match s.authority.values.find? fun g ↦
      s.evidenceCurrent g.provenance.source .authority g.provenance.sequence &&
        authorityAdmits g i now == .ok with
  | some g => g.id
  | none => .empty

/-- The assignments that hold authority on a device, `src/fabric.cpp:1244-1249`. -/
def deviceAssignments (s : FabricState) (d : DeviceId) : Nat :=
  s.assignments.values.countP fun r ↦ r.device = d && r.state.holdsAuthority

end FabricState

/-- `EvaluationContext`, `src/fabric.cpp:1060-1071`. -/
structure EvaluationContext where
  state : FabricState
  now : Micros
  function : FunctionDescriptor
  rule : PolicyRule
  policy : PolicySnapshot
  request : PlacementRequest
  requestScope : ScopeId
  replacing : AssignmentId

namespace EvaluationContext

/-- The refusal of a candidate, `src/fabric.cpp:1155-1159`. -/
def refused (e : CandidateEvaluation) (v : MatchVerdict) (reason : ReasonCode) :
    CandidateEvaluation :=
  { e with verdict := v, reason := reason }

/-- The evaluation of a candidate before any check, `src/fabric.cpp:1145-1150`. -/
def candidateOf (d : DeviceRecord) : CandidateEvaluation where
  device := d.id
  host := d.host
  kind := d.kind
  incarnation := d.incarnation

variable (c : EvaluationContext) (d : DeviceRecord)

/-- The kind checks, `src/fabric.cpp:1161-1174`. -/
def kindStep (e : CandidateEvaluation) : Except CandidateEvaluation CandidateEvaluation := do
  require (d.decommissioned = false) (refused e .unsupported .targetDisappeared)
  if d.kind = .hostStack then
    require (c.request.allowHostFallback ∧ c.rule.allowHostFallback)
      (refused e .unsupported .hostFallbackNotPermitted)
    return { e with mode := .hostFallback }
  else
    require (d.kind ∈ c.rule.allowedKinds) (refused e .unsupported .deviceKindNotPermitted)
    return e

/-- The affinity checks, `src/fabric.cpp:1179-1193`. -/
def affinityStep (e : CandidateEvaluation) : Except CandidateEvaluation Unit := do
  require (c.request.preferredDevices = [] ∨ d.id ∈ c.request.preferredDevices)
    (refused e .unknown .affinityUnsatisfied)
  require (c.request.preferredHosts = [] ∨ d.host ∈ c.request.preferredHosts)
    (refused e .unknown .affinityUnsatisfied)
  require (d.id ∉ c.request.antiAffinityDevices ∧ d.host ∉ c.request.antiAffinityHosts)
    (refused e .unknown .antiAffinityViolation)
  require (∀ label ∈ c.request.requiredLabels, label ∈ d.labels)
    (refused e .unknown .affinityUnsatisfied)

/-- The capability checks, `src/fabric.cpp:1199-1238`. -/
def capabilityStep (e : CandidateEvaluation) :
    Except CandidateEvaluation CandidateEvaluation := do
  match c.state.lookupCapability d.id c.request.cls with
  | none =>
      require (¬ (c.rule.requireCapability ∧ d.kind ≠ .hostStack))
        (refused e .missing .evidenceMissing)
      return e
  | some capability =>
      let m := matchCapability c.function capability d.incarnation c.now
      require (m.verdict ≠ .revoked ∧ m.verdict ≠ .incarnationMismatch)
        (refused e m.verdict m.reason)
      if d.kind = .hostStack then
        return if m.verdict ≠ .eligible then
            { e with contributing := e.contributing ++ [m.reason] }
          else e
      else
        require (m.verdict ≠ .unsupported ∧ m.verdict ≠ .versionIncompatible)
          (refused e m.verdict m.reason)
        if c.rule.requireCapability then
          require (c.state.evidenceCurrent capability.provenance.source .capability
            capability.provenance.sequence) (refused e .superseded .evidenceSuperseded)
          require (¬ (Gen.isSet c.request.minCapability ∧
            capability.generation < c.request.minCapability))
            (refused e .stale .generationMismatch)
          require m.eligible (refused e m.verdict m.reason)
          return { e with capabilityGeneration := capability.generation }
        else
          return if m.eligible then { e with capabilityGeneration := capability.generation }
            else e

/-- The capacity checks, `src/fabric.cpp:1240-1252`. -/
def capacityStep (e : CandidateEvaluation) : Except CandidateEvaluation Unit := do
  require (capacityAdmits d.capacity (c.state.committedDemandFor d.id) c.request.demand)
    (refused e .eligible .capacityExhausted)
  require (c.state.deviceAssignments d.id < c.rule.maxAssignmentsPerDevice.toNat)
    (refused e .eligible .capacityExhausted)

/-- The liveness checks, `src/fabric.cpp:1255-1280`. -/
def livenessStep (e : CandidateEvaluation) : Except CandidateEvaluation Unit := do
  if c.rule.requireFreshObservation then
    let o ← present (c.state.observations.find? d.id) (refused e .unknown .livenessUnknown)
    require o.device.isSet (refused e .unknown .livenessUnknown)
    require (o.incarnation = d.incarnation)
      (refused e .incarnationMismatch .incarnationMismatch)
    require (c.state.evidenceCurrent o.provenance.source .observation o.provenance.sequence)
      (refused e .superseded .evidenceSuperseded)
    require (¬ o.freshness.isExpired c.now) (refused e .stale .livenessStale)
    match o.liveness with
    | .alive => pure ()
    | .degraded => throw (refused e .eligible .livenessDegraded)
    | .dead => throw (refused e .eligible .livenessDead)
    | .unknown => throw (refused e .unknown .livenessUnknown)

/-- Whether an assignment satisfies a dependency, `src/fabric.cpp:1291-1301`. -/
def satisfies (dependency : FunctionId) (r : AssignmentRecord) : Bool :=
  r.function = dependency && r.state.holdsAuthority &&
    (r.device = d.id || (c.requestScope ≠ .empty && r.scopeId = c.requestScope))

/-- The loop body over dependencies, `src/fabric.cpp:1283-1305`. -/
def dependencyStep (e : CandidateEvaluation) (dependency : FunctionId) :
    Except CandidateEvaluation Unit := do
  require (dependency ≠ c.request.function) (refused e .eligible .dependencyCycle)
  require ((c.state.functions.find? dependency).isSome)
    (refused e .eligible .dependencyUnresolved)
  require (c.state.assignments.values.any (c.satisfies d dependency))
    (refused e .eligible .dependencyUnresolved)

/-- The exclusivity check, `src/fabric.cpp:1308-1314`. -/
def exclusivityStep (e : CandidateEvaluation) : Except CandidateEvaluation Unit := do
  if c.request.exclusivity = .exclusive then
    require (c.state.exclusiveConflict c.requestScope c.request.cls c.rule.exclusiveKey
      c.replacing = none) (refused e .conflicting .exclusiveConflict)

/-- What a placement on the device asks a grant for, `src/fabric.cpp:1326-1329`. -/
def intent : Intent where
  action := .place
  cls := c.request.cls
  kind := d.kind
  host := d.host
  scope := c.requestScope
  semantics := c.function.required.unite c.rule.required
  policyGeneration := c.policy.generation

/-- The authority check, `src/fabric.cpp:1318-1339`. -/
def authorityStep (e : CandidateEvaluation) : Except CandidateEvaluation Unit := do
  if c.rule.requireAuthority then
    require (c.state.authority.values.any fun g ↦
        c.state.evidenceCurrent g.provenance.source .authority g.provenance.sequence &&
          authorityAdmits g (c.intent d) c.now == .ok)
      (refused e .eligible .authorityMissing)

/-- The checks of `evaluate_device` in order, `src/fabric.cpp:1161-1343`. -/
def evaluationSteps : Except CandidateEvaluation CandidateEvaluation := do
  let e ← c.kindStep d (candidateOf d)
  c.affinityStep d e
  let e ← c.capabilityStep d e
  c.capacityStep d e
  c.livenessStep d e
  c.request.dependencies.forM (c.dependencyStep d e)
  c.exclusivityStep e
  c.authorityStep d e
  return { e with eligible := true, verdict := .eligible, reason := .ok }

/-- `evaluate_device`, `src/fabric.cpp:1144-1344`. -/
def evaluateDevice : CandidateEvaluation :=
  match c.evaluationSteps d with
  | .ok e => e
  | .error e => e

end EvaluationContext

/-- `finalize_ranking`, `src/fabric.cpp:1346-1366`. -/
def finalizeRanking (e : CandidateEvaluation) (capacity : CapacityVector)
    (committed : DemandVector) (scope : ScopeSpec) (preferredHosts : List HostId) :
    CandidateEvaluation :=
  let offloadRank : UInt32 := if e.mode = .hostFallback then 1 else 0
  let localityRank : UInt32 :=
    if e.localityRank ≠ 0 then e.localityRank
    else if scope.domain.isSet ∧ scope.domain = e.host then 0
    else if e.host ∈ preferredHosts then 1
    else 2
  let utilization := utilizationPpm committed capacity
  { e with
    offloadRank, localityRank
    kindRank := kindRank e.kind
    utilizationPpm := utilization
    rank := offloadRank.toUInt64 * 1000000000000 + (kindRank e.kind).toUInt64 * 10000000000 +
      localityRank.toUInt64 * 100000000 + utilization }

/-- `candidate_precedes`, `src/fabric.cpp:1367-1381`. -/
def candidatePrecedes (l r : CandidateEvaluation) : Bool :=
  if l.offloadRank ≠ r.offloadRank then l.offloadRank < r.offloadRank
  else if l.kindRank ≠ r.kindRank then l.kindRank < r.kindRank
  else if l.localityRank ≠ r.localityRank then l.localityRank < r.localityRank
  else if l.utilizationPpm ≠ r.utilizationPpm then l.utilizationPpm < r.utilizationPpm
  else l.device < r.device

/-- The first candidate that no later one precedes, the loops of `src/fabric.cpp:1387-1396` and
`src/fabric.cpp:2452-2460`. -/
def bestCandidate (candidates : List CandidateEvaluation) : Option CandidateEvaluation :=
  candidates.foldl (fun best candidate ↦
    match best with
    | none => some candidate
    | some b => if candidatePrecedes candidate b then some candidate else some b) none

/-- `primary_refusal_reason`, `src/fabric.cpp:1387-1401`. -/
def primaryRefusalReason (candidates : List CandidateEvaluation) : ReasonCode :=
  match bestCandidate (candidates.filter fun e ↦ !e.eligible) with
  | some best => best.reason
  | none => .noEligibleTarget

/-! ## Planning -/

/-- The scope identity a request or plan derives, `src/fabric.cpp:2338-2350`: the global scope
has none. -/
def scopeIdentity (spec : ScopeSpec) : Result ScopeId := do
  spec.validate
  if spec.kind ≠ .global then spec.deriveScopeId else pure .empty

namespace FabricState

/-- The refusals of `plan_locked` before any candidate, `src/fabric.cpp:2355-2380`. -/
def planEvidence (s : FabricState) (request : PlacementRequest) (now : Micros) :
    Except ReasonCode (TopologySnapshot × PolicySnapshot) := do
  let t ← present s.topology .evidenceMissing
  let p ← present s.policy .policyStale
  require (s.evidenceCurrent t.provenance.source .topology t.provenance.sequence)
    .evidenceSuperseded
  require (¬ t.freshness.isExpired now) .topologyStale
  require (s.evidenceCurrent p.provenance.source .policy p.provenance.sequence)
    .evidenceSuperseded
  require (¬ p.freshness.isExpired now) .policyStale
  require (¬ (Gen.isSet request.minTopology ∧ t.generation < request.minTopology))
    .generationMismatch
  require (¬ (Gen.isSet request.minPolicy ∧ p.generation < request.minPolicy)) .policyStale
  return (t, p)

/-- The requirement of a request, `src/fabric.cpp:2383-2403`. -/
def planFunction (s : FabricState) (request : PlacementRequest) :
    Except ReasonCode FunctionDescriptor := do
  match s.functions.find? request.function with
  | none => return ⟨request.function, request.cls, request.required, request.requiredVersion, true⟩
  | some f =>
      require (f.cls = request.cls) .semanticsMismatch
      require ((request.requiredVersion.major = 0 ∧ request.requiredVersion.minor = 0) ∨
        request.requiredVersion = f.requiredVersion) .semanticsMismatch
      return ⟨request.function, request.cls, f.required.unite request.required,
        f.requiredVersion, true⟩

/-- The holder a placement replaces, `src/fabric.cpp:2414-2428`. -/
def currentHolder (s : FabricState) (request : PlacementRequest) (scope : ScopeId) :
    AssignmentId :=
  if request.requestReplacement ∨ request.exclusivity = .exclusive then
    (s.exclusiveByClass[ExclusivityKey.mk scope request.cls]?.or
      s.exclusiveByScope[scope]?).getD .empty
  else .empty

/-- One candidate of a plan, `src/fabric.cpp:2438-2450`. -/
def planCandidate (s : FabricState) (c : EvaluationContext) (d : DeviceRecord) :
    CandidateEvaluation :=
  let e := finalizeRanking (c.evaluateDevice d) d.capacity (s.committedDemandFor d.id)
    c.request.scope c.request.preferredHosts
  match digestWith (encCandidate e) 4096 with
  | .ok digest => { e with evaluationDigest := digest }
  | .error _ => { e with evaluationDigest := .zero }

/-- The explanation every plan starts from, `src/fabric.cpp:2307-2315`. -/
def planExplanation (b : Bounds) (request : PlacementRequest) : Explanation where
  requestId := request.requestId
  function := request.function
  cls := request.cls
  scope := request.scope
  exclusivity := request.exclusivity
  inputDigest := fingerprintOf b request

/-- `refuse`, `src/fabric.cpp:2317-2326`. -/
def refusedPlan (explanation : Explanation) (reason : ReasonCode) : PlanResult where
  decision := .refuse
  primaryReason := reason
  explanation := { explanation with
    decision := .refuse, primaryReason := reason, reasons := [reason] }

/-- The plan for a selected candidate, `src/fabric.cpp:2491-2527`. -/
def planFor (s : FabricState) (b : Bounds) (c : EvaluationContext)
    (binding : GenerationBinding) (selected : CandidateEvaluation) : AssignmentPlan :=
  let effective := c.function.required.unite c.rule.required
  let plan : AssignmentPlan := {
    requestId := c.request.requestId
    function := c.request.function
    cls := c.request.cls
    scope := c.request.scope
    scopeId := c.requestScope
    exclusivity := c.request.exclusivity
    exclusiveKey := c.rule.exclusiveKey
    mode := selected.mode
    device := selected.device
    host := selected.host
    kind := selected.kind
    incarnation := selected.incarnation
    demand := c.request.demand
    binding := { binding with
      capability := selected.capabilityGeneration
      schema := match s.lookupCapability selected.device c.request.cls with
        | some capability => capability.schema
        | none => binding.schema }
    effectiveRequirement := effective
    authority := if c.rule.requireAuthority then
        s.findAdmittingAuthority ⟨.place, c.request.cls, selected.kind, selected.host,
          c.requestScope, effective, c.policy.generation⟩ c.now
      else .empty
    planDigest := .zero }
  match digestWith (encPlan plan) b.maxCanonicalBytes.toNat with
  | .ok digest => { plan with planDigest := digest }
  | .error _ => plan

/-- The result for a selected candidate, `src/fabric.cpp:2491-2560`. -/
def acceptedPlan (s : FabricState) (b : Bounds) (c : EvaluationContext) (base : PlanResult)
    (truncated : Bool) (selected : CandidateEvaluation) : PlanResult :=
  let plan := s.planFor b c base.explanation.binding selected
  if c.rule.requireAuthority ∧ plan.authority = .empty then
    { base with
      plan := { plan with planDigest := .zero }
      decision := .refuse
      primaryReason := .authorityMissing
      explanation := { base.explanation with
        decision := .refuse, primaryReason := .authorityMissing, reasons := [.authorityMissing] } }
  else
    let decision := if c.replacing = .empty then Decision.accept else Decision.replace
    let reason := if plan.mode = .hostFallback then ReasonCode.hostFallbackApplied else .ok
    { base with
      plan
      decision
      primaryReason := reason
      explanation := { base.explanation with
        decision, primaryReason := reason
        reasons := (if plan.mode = .hostFallback then [.hostFallbackApplied] else []) ++
          (if truncated then [.truncatedResult] else [])
        binding := plan.binding
        authority := plan.authority
        mode := plan.mode
        selectedDevice := plan.device
        replaced := c.replacing
        decisionDigest :=
          match digestWith (do encPlan plan; Writer.u8 decision.code) b.maxCanonicalBytes.toNat with
          | .ok digest => digest
          | .error _ => .zero } }

/-- The candidates of a plan and its selection, `src/fabric.cpp:2430-2560`. -/
def planCandidates (s : FabricState) (b : Bounds) (c : EvaluationContext)
    (t : TopologySnapshot) (explanation : Explanation) : PlanResult :=
  let limit := min t.devices.length b.maxCandidatesPerPlan.toNat
  let truncated := decide (limit < t.devices.length)
  let candidates := (t.devices.take limit).map (s.planCandidate c)
  let reported := candidates.take b.maxCandidatesReported.toNat
  let base : PlanResult := {
    candidates := reported
    candidatesTotal := UInt64.ofNat candidates.length
    candidatesTruncated := truncated
    explanation := { explanation with
      candidates := reported
      candidatesTotal := UInt64.ofNat candidates.length
      candidatesTruncated := truncated || reported.length < candidates.length
      binding := { topology := t.generation, policy := c.policy.generation, assignment := 1 } } }
  match bestCandidate (candidates.filter (·.eligible)) with
  | none =>
      let reason := primaryRefusalReason candidates
      { base with
        decision := .refuse
        primaryReason := reason
        explanation := { base.explanation with
          decision := .refuse
          primaryReason := reason
          reasons := [reason] ++ if truncated then [.truncatedResult] else [] } }
  | some selected => s.acceptedPlan b c base truncated selected

/-- `plan_locked`, `src/fabric.cpp:2304-2560`. -/
def planLocked (s : FabricState) (b : Bounds) (request : PlacementRequest) (cancelled : Bool)
    (now : Micros) : Result PlanResult := do
  require (cancelled = false) ⟨.cancelled, "plan cancelled"⟩
  let scope ← scopeIdentity request.scope
  let explanation := { planExplanation b request with scopeId := scope }
  require (request.function ≠ .empty)
    ⟨.invalidIdentifier, "placement request carries no function"⟩
  match s.planEvidence request now with
  | .error reason => return refusedPlan explanation reason
  | .ok (t, p) =>
      match s.planFunction request with
      | .error reason => return refusedPlan explanation reason
      | .ok function =>
          require (function.required.count ≤ b.maxSemanticsPerRequirement.toNat)
            ⟨.limitExceeded, "requirement exceeds the semantics bound"⟩
          match p.findRule request.cls with
          | none => return refusedPlan explanation .refusedByPolicy
          | some rule =>
              let replacing := s.currentHolder request scope
              if request.requestReplacement = false ∧ replacing ≠ .empty then
                return refusedPlan { explanation with assignment := replacing }
                  .exclusiveConflict
              else
                return s.planCandidates b
                  ⟨s, now, function, rule, p, request, scope, replacing⟩ t explanation

end FabricState

end OffloadFabric
