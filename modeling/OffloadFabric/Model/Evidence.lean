import OffloadFabric.Model.Topology

/-!
# Capability, policy, observation and authority evidence

`include/nof/{capability,policy,observation,authority}.hpp` with their sources: what the
adjacent runtimes assert, its validation, the exact capability match and the admission of an
action by a grant.
-/

namespace OffloadFabric

open Lib

/-! ## Capabilities -/

/-- `MatchVerdict`, `include/nof/capability.hpp:18-29`. -/
inductive MatchVerdict where
  | eligible | unsupported | unknown | conflicting | stale | superseded | versionIncompatible
  | incarnationMismatch | revoked | missing
  deriving DecidableEq, Repr

namespace MatchVerdict

/-- The durable number of a verdict, `include/nof/capability.hpp:19-28`. -/
def code : MatchVerdict → UInt8
  | .eligible => 1
  | .unsupported => 2
  | .unknown => 3
  | .conflicting => 4
  | .stale => 5
  | .superseded => 6
  | .versionIncompatible => 7
  | .incarnationMismatch => 8
  | .revoked => 9
  | .missing => 10

/-- The verdict a raw number names, `src/capability.cpp:7-31`. -/
def ofCode? : UInt8 → Option MatchVerdict
  | 1 => some .eligible
  | 2 => some .unsupported
  | 3 => some .unknown
  | 4 => some .conflicting
  | 5 => some .stale
  | 6 => some .superseded
  | 7 => some .versionIncompatible
  | 8 => some .incarnationMismatch
  | 9 => some .revoked
  | 10 => some .missing
  | _ => none

instance : Coded MatchVerdict UInt8 where
  code := code
  ofCode? := ofCode?
  ofCode?_code c := by cases c <;> rfl

end MatchVerdict

/-- `CapabilityRecord`, `include/nof/capability.hpp:33-53`. -/
structure CapabilityRecord where
  device : DeviceId
  incarnation : IncarnationId
  cls : FunctionClass
  supported : SemanticsMask
  unsupported : SemanticsMask
  unknown : SemanticsMask
  versionRange : VersionRange
  capacity : CapacityVector
  schema : SchemaGeneration
  generation : CapabilityGeneration
  provenance : Provenance
  freshness : Freshness
  revoked : Bool
  deriving DecidableEq

/-- `CapabilityReport`, `include/nof/capability.hpp:55-61`. -/
structure CapabilityReport where
  provenance : Provenance
  freshness : Freshness
  records : List CapabilityRecord
  deriving DecidableEq

/-- The record loop of `validate_capability_report`, `src/capability.cpp:73-109`. -/
def validateCapabilityRecord (b : Bounds) (r : CapabilityRecord) : Result Unit := do
  require (r.device ≠ .empty) ⟨.invalidIdentifier, "capability record has no device"⟩
  require r.incarnation.isSet
    ⟨.incarnationMismatch, "capability record incarnation is unset"⟩
  require (Gen.isSet r.generation) ⟨.outOfRange, "capability record generation is unset"⟩
  require (Gen.isSet r.schema) ⟨.outOfRange, "capability record schema generation is unset"⟩
  require r.provenance.isSet ⟨.provenanceMismatch, "capability record provenance is unset"⟩
  checkFreshness r.freshness "capability record"
  require (r.supported.bits &&& r.unsupported.bits = 0 ∧ r.supported.bits &&& r.unknown.bits = 0 ∧
      r.unsupported.bits &&& r.unknown.bits = 0)
    ⟨.semanticsMismatch, "capability record classifies a semantic in more than one bucket"⟩
  require (r.supported.count ≤ (b.maxSemanticsPerRequirement * 4).toNat)
    ⟨.limitExceeded, "capability record claims too many semantics"⟩
  require (¬ r.versionRange.maximum < r.versionRange.minimum)
    ⟨.malformedInput, "capability version range is inverted"⟩

/-- The order loop of `validate_capability_report`, `src/capability.cpp:110-122`. -/
def checkCapabilityOrder (p : CapabilityRecord × CapabilityRecord) : Result Unit := do
  require (¬ (p.1.device = p.2.device ∧ p.1.cls = p.2.cls))
    ⟨.duplicateIdentity, "capability report repeats a device and function class"⟩
  require (¬ (p.2.device < p.1.device ∨
      (p.2.device = p.1.device ∧ ¬ p.1.cls.code < p.2.cls.code)))
    ⟨.duplicateIdentity, "capability records must be ordered by device then function class"⟩

/-- `validate_capability_report`, `src/capability.cpp:57-120`. -/
def validateCapabilityReport (r : CapabilityReport) (b : Bounds) : Result Unit := do
  require r.provenance.isSet ⟨.provenanceMismatch, "capability report provenance is unset"⟩
  checkFreshness r.freshness "capability report"
  require (r.records ≠ []) ⟨.emptyInput, "capability report carries no records"⟩
  require (r.records.length ≤ b.maxCapabilityRecords.toNat)
    ⟨.limitExceeded, "capability record count exceeds bound"⟩
  r.records.forM (validateCapabilityRecord b)
  (adjacent r.records).forM checkCapabilityOrder

/-- `CapabilityMatch`, `include/nof/capability.hpp:69-77`. -/
structure CapabilityMatch where
  verdict : MatchVerdict := .missing
  reason : ReasonCode := .evidenceMissing
  unsatisfied : SemanticsMask := {}
  denied : SemanticsMask := {}
  unresolved : SemanticsMask := {}

/-- `CapabilityMatch::eligible`, `include/nof/capability.hpp:76`. -/
def CapabilityMatch.eligible (m : CapabilityMatch) : Bool := m.verdict == .eligible

/-- `match_capability`, `src/capability.cpp:126-171`. -/
def matchCapability (f : FunctionDescriptor) (r : CapabilityRecord) (expected : IncarnationId)
    (now : Micros) : CapabilityMatch :=
  if r.revoked then { verdict := .revoked, reason := .capabilityUnsupported }
  else if r.incarnation ≠ expected then
    { verdict := .incarnationMismatch, reason := .incarnationMismatch }
  else if r.freshness.isExpired now then { verdict := .stale, reason := .capabilityStale }
  else if !r.versionRange.admits f.requiredVersion then
    { verdict := .versionIncompatible, reason := .capabilityIncompatible }
  else
    let denied := f.required.intersection r.unsupported
    let unresolved := f.required.intersection r.unknown
    let unsatisfied := f.required.difference r.supported
    if !denied.isEmpty then
      { verdict := .unsupported, reason := .capabilityUnsupported, denied }
    else if !unresolved.isEmpty then
      { verdict := .unknown, reason := .capabilityUnknown, denied, unresolved }
    else if !unsatisfied.isEmpty then
      { verdict := .unknown, reason := .capabilityUnknown, denied, unresolved, unsatisfied }
    else { verdict := .eligible, reason := .ok, denied, unresolved, unsatisfied }

/-- What an eligible match establishes. -/
structure CapabilityRecord.Matches (r : CapabilityRecord) (f : FunctionDescriptor)
    (expected : IncarnationId) (now : Micros) : Prop where
  held : r.revoked = false
  incarnation : r.incarnation = expected
  fresh : ¬ r.freshness.isExpired now
  version : r.versionRange.admits f.requiredVersion = true
  denied : (f.required.intersection r.unsupported).isEmpty = true
  unresolved : (f.required.intersection r.unknown).isEmpty = true
  supported : f.required.isSubsetOf r.supported = true

theorem matchCapability_eligible {f : FunctionDescriptor} {r : CapabilityRecord}
    {expected : IncarnationId} {now : Micros} :
    (matchCapability f r expected now).eligible = true ↔ r.Matches f expected now := by
  have hsupported : (f.required.difference r.supported).isEmpty =
    f.required.isSubsetOf r.supported := rfl
  constructor
  · intro h
    unfold matchCapability at h
    split at h
    · cases h
    next hheld =>
    split at h
    · cases h
    next hincarnation =>
    split at h
    · cases h
    next hfresh =>
    split at h
    · cases h
    next hversion =>
    simp only at h
    split at h
    · cases h
    next hdenied =>
    split at h
    · cases h
    next hunresolved =>
    split at h
    · cases h
    next hunsatisfied =>
    exact ⟨by simpa using hheld, by simpa using hincarnation, hfresh, by simpa using hversion,
      by simpa using hdenied, by simpa using hunresolved, by simpa [hsupported] using hunsatisfied⟩
  · intro h
    unfold matchCapability
    rw [if_neg (by simp [h.held]), if_neg (by simp [h.incarnation]), if_neg h.fresh,
      if_neg (by simp [h.version])]
    simp only
    rw [if_neg (by simp [h.denied]), if_neg (by simp [h.unresolved]),
      if_neg (by simp [hsupported, h.supported])]
    rfl

/-- What matches a function matches one of the same version that requires less, for as long as
it is fresh. -/
theorem CapabilityRecord.Matches.weaken {r : CapabilityRecord} {f g : FunctionDescriptor}
    {expected : IncarnationId} {now now' : Micros} {extra : SemanticsMask}
    (h : r.Matches f expected now) (hrequired : f.required = g.required.unite extra)
    (hversion : f.requiredVersion = g.requiredVersion) (hfresh : ¬ r.freshness.isExpired now') :
    r.Matches g expected now' := by
  obtain ⟨hheld, hincarnation, -, hadmits, hdenied, hunresolved, hsupported⟩ := h
  rw [hversion] at hadmits
  rw [hrequired] at hdenied hunresolved hsupported
  exact ⟨hheld, hincarnation, hfresh, hadmits,
    (SemanticsMask.unite_intersection_isEmpty.mp hdenied).1,
    (SemanticsMask.unite_intersection_isEmpty.mp hunresolved).1,
    (SemanticsMask.unite_isSubsetOf.mp hsupported).1⟩

/-- A match with no reason against it is eligible. -/
theorem eligible_of_reason {f : FunctionDescriptor} {r : CapabilityRecord}
    {expected : IncarnationId} {now : Micros}
    (h : (matchCapability f r expected now).reason = .ok) :
    (matchCapability f r expected now).eligible = true := by
  unfold matchCapability at h ⊢
  by_cases hheld : r.revoked = true
  · rw [if_pos hheld] at h
    cases h
  rw [if_neg hheld] at h ⊢
  by_cases hincarnation : r.incarnation ≠ expected
  · rw [if_pos hincarnation] at h
    cases h
  rw [if_neg hincarnation] at h ⊢
  by_cases hfresh : r.freshness.isExpired now
  · rw [if_pos hfresh] at h
    cases h
  rw [if_neg hfresh] at h ⊢
  by_cases hversion : (!r.versionRange.admits f.requiredVersion) = true
  · rw [if_pos hversion] at h
    cases h
  rw [if_neg hversion] at h ⊢
  simp only at h ⊢
  by_cases hdenied : (!(f.required.intersection r.unsupported).isEmpty) = true
  · rw [if_pos hdenied] at h
    cases h
  rw [if_neg hdenied] at h ⊢
  by_cases hunresolved : (!(f.required.intersection r.unknown).isEmpty) = true
  · rw [if_pos hunresolved] at h
    cases h
  rw [if_neg hunresolved] at h ⊢
  by_cases hunsatisfied : (!(f.required.difference r.supported).isEmpty) = true
  · rw [if_pos hunsatisfied] at h
    cases h
  rw [if_neg hunsatisfied]
  rfl

/-- The liveness of a device is no matter of its capability. -/
theorem matchCapability_reason_ne (f : FunctionDescriptor) (r : CapabilityRecord)
    (expected : IncarnationId) (now : Micros) :
    (matchCapability f r expected now).reason ≠ .livenessDegraded := by
  unfold matchCapability
  simp only
  repeat' split
  all_goals exact ReasonCode.noConfusion

theorem matchCapability_reason_plain (f : FunctionDescriptor) (r : CapabilityRecord)
    (expected : IncarnationId) (now : Micros) :
    (matchCapability f r expected now).reason.Plain := by
  unfold matchCapability
  simp only
  repeat' split
  all_goals exact ⟨ReasonCode.noConfusion, ReasonCode.noConfusion⟩

/-- `capability_records_conflict`, `src/capability.cpp:173-181`. -/
def capabilityRecordsConflict (a b : CapabilityRecord) : Bool :=
  if a.device ≠ b.device ∨ a.cls ≠ b.cls then false
  else a.supported ≠ b.supported || a.unsupported ≠ b.unsupported || a.unknown ≠ b.unknown ||
    a.versionRange ≠ b.versionRange || a.capacity ≠ b.capacity || a.revoked ≠ b.revoked ||
    a.incarnation ≠ b.incarnation

/-! ## Policy -/

/-- `PolicyRule`, `include/nof/policy.hpp:21-39`. -/
structure PolicyRule where
  cls : FunctionClass
  required : SemanticsMask := {}
  allowedKinds : List DeviceKind
  exclusiveKey : ExclusiveKeyMode := .perClass
  allowHostFallback : Bool := false
  requireAuthority : Bool := true
  requireFreshObservation : Bool := true
  requireCapability : Bool := true
  priority : UInt32 := 0
  maxReassignmentsPerScope : UInt64 := 4
  reassignmentWindowMicros : UInt64 := 3600000000
  maxAssignmentsPerDevice : UInt64 := 4096
  reserve : DemandVector := {}
  deriving DecidableEq

/-- `PolicySnapshot`, `include/nof/policy.hpp:41-49`. -/
structure PolicySnapshot where
  generation : PolicyGeneration
  provenance : Provenance
  freshness : Freshness
  rules : List PolicyRule
  defaultDeny : Bool := true
  deriving DecidableEq

/-- `PolicySnapshot::find_rule`, `src/policy.cpp:7-14`. -/
def PolicySnapshot.findRule (p : PolicySnapshot) (cls : FunctionClass) : Option PolicyRule :=
  p.rules.find? fun r ↦ r.cls == cls

/-- `check_kind_list`, `src/policy.cpp:18-30`. -/
def checkKindList (kinds : List DeviceKind) (field : String) : Result Unit := do
  require (kinds ≠ []) ⟨.malformedInput, field ++ " device kind list is empty"⟩
  require (∀ p ∈ adjacent kinds, p.1.code < p.2.code)
    ⟨.duplicateIdentity, field ++ " device kinds must be sorted and unique"⟩

/-- The rule loop of `validate_policy_snapshot`, `src/policy.cpp:50-73`. -/
def validatePolicyRule (b : Bounds) (r : PolicyRule) : Result Unit := do
  checkKindList r.allowedKinds "policy rule"
  require (r.reassignmentWindowMicros ≠ 0)
    ⟨.malformedInput, "policy reassignment window must be non-zero"⟩
  require (r.maxReassignmentsPerScope ≠ 0 ∧
      r.maxReassignmentsPerScope ≤ b.maxReassignmentsPerScope)
    ⟨.limitExceeded, "policy reassignment budget exceeds the configured bound"⟩
  require (r.reassignmentWindowMicros ≤ b.maxReassignmentWindowMicros)
    ⟨.limitExceeded, "policy reassignment window exceeds the configured bound"⟩
  require (r.maxAssignmentsPerDevice ≠ 0 ∧ r.maxAssignmentsPerDevice ≤ b.maxActiveAssignments)
    ⟨.limitExceeded, "policy device assignment ceiling exceeds the configured bound"⟩

/-- The order loop of `validate_policy_snapshot`, `src/policy.cpp:74-85`. -/
def checkRuleOrder (p : PolicyRule × PolicyRule) : Result Unit := do
  require (¬ (p.1.priority = p.2.priority ∧ p.1.cls = p.2.cls))
    ⟨.duplicateIdentity, "policy rules must be ordered by priority then class without duplicates"⟩
  require (¬ (p.2.priority < p.1.priority ∨
      (p.1.priority = p.2.priority ∧ ¬ p.1.cls.code < p.2.cls.code)))
    ⟨.duplicateIdentity, "policy rules must be ordered by priority then class"⟩

/-- `validate_policy_snapshot`, `src/policy.cpp:34-87`. -/
def validatePolicySnapshot (p : PolicySnapshot) (b : Bounds) : Result Unit := do
  require (Gen.isSet p.generation) ⟨.outOfRange, "policy generation is unset"⟩
  require p.provenance.isSet ⟨.provenanceMismatch, "policy provenance is unset"⟩
  checkFreshness p.freshness "policy"
  require (p.rules.length ≤ b.maxFunctions.toNat)
    ⟨.limitExceeded, "policy rule count exceeds bound"⟩
  p.rules.forM (validatePolicyRule b)
  (adjacent p.rules).forM checkRuleOrder

/-! ## Observations -/

/-- `Liveness`, `include/nof/observation.hpp:17-22`. -/
inductive Liveness where
  | unknown | alive | degraded | dead
  deriving DecidableEq, Repr

namespace Liveness

/-- The durable number of a liveness, `include/nof/observation.hpp:18-21`. -/
def code : Liveness → UInt8
  | .unknown => 0
  | .alive => 1
  | .degraded => 2
  | .dead => 3

/-- The liveness a raw number names, `src/observation.cpp:7-19`. -/
def ofCode? : UInt8 → Option Liveness
  | 0 => some .unknown
  | 1 => some .alive
  | 2 => some .degraded
  | 3 => some .dead
  | _ => none

instance : Coded Liveness UInt8 where
  code := code
  ofCode? := ofCode?
  ofCode?_code c := by cases c <;> rfl

end Liveness

/-- `DeviceObservation`, `include/nof/observation.hpp:27-37`. -/
structure DeviceObservation where
  device : DeviceId
  incarnation : IncarnationId
  liveness : Liveness
  available : CapacityVector
  availableKnown : Bool
  freshness : Freshness
  provenance : Provenance
  deriving DecidableEq

/-- `ObservationReport`, `include/nof/observation.hpp:39-46`. -/
structure ObservationReport where
  topologyGeneration : TopologyGeneration
  provenance : Provenance
  freshness : Freshness
  devices : List DeviceObservation
  deriving DecidableEq

/-- The device loop of `validate_observation_report`, `src/observation.cpp:65-84`, after the
observation `previous`. -/
def validateObservations (previous : Option DeviceObservation) :
    List DeviceObservation → Result Unit
  | [] => .ok ()
  | o :: rest => do
      require (o.device ≠ .empty) ⟨.invalidIdentifier, "observation has no device"⟩
      require o.incarnation.isSet ⟨.incarnationMismatch, "observation incarnation is unset"⟩
      require o.provenance.isSet ⟨.provenanceMismatch, "observation provenance is unset"⟩
      require (0 < o.freshness.observedAt ∧ o.freshness.observedAt < o.freshness.validUntil)
        ⟨.malformedInput, "observation freshness is not usable"⟩
      require (∀ p ∈ previous, p.device < o.device)
        ⟨.duplicateIdentity, "observations must be sorted by device without duplicates"⟩
      validateObservations (some o) rest

/-- `validate_observation_report`, `src/observation.cpp:47-86`. -/
def validateObservationReport (r : ObservationReport) (b : Bounds) : Result Unit := do
  require (Gen.isSet r.topologyGeneration)
    ⟨.topologyStale, "observation report carries no topology generation"⟩
  require r.provenance.isSet ⟨.provenanceMismatch, "observation report provenance is unset"⟩
  require (0 < r.freshness.observedAt ∧ r.freshness.observedAt < r.freshness.validUntil)
    ⟨.malformedInput, "observation report freshness is not usable"⟩
  require (r.devices ≠ []) ⟨.emptyInput, "observation report carries no device observations"⟩
  require (r.devices.length ≤ b.maxObservations.toNat)
    ⟨.limitExceeded, "observation count exceeds bound"⟩
  validateObservations none r.devices

/-! ## Authority grants -/

/-- `AuthorityAction`, `include/nof/authority.hpp:17-22`. -/
inductive AuthorityAction where
  | place | replace | revoke | reauthorize
  deriving DecidableEq, Repr

namespace AuthorityAction

/-- The durable number of an action, `include/nof/authority.hpp:18-21`. -/
def code : AuthorityAction → UInt8
  | .place => 1
  | .replace => 2
  | .revoke => 3
  | .reauthorize => 4

/-- The action a raw number names, `src/authority.cpp:5-17`. -/
def ofCode? : UInt8 → Option AuthorityAction
  | 1 => some .place
  | 2 => some .replace
  | 3 => some .revoke
  | 4 => some .reauthorize
  | _ => none

instance : Coded AuthorityAction UInt8 where
  code := code
  ofCode? := ofCode?
  ofCode?_code c := by cases c <;> rfl

end AuthorityAction

/-- `AuthorityGrant`, `include/nof/authority.hpp:27-47`. -/
structure AuthorityGrant where
  id : AuthorityId
  policyGeneration : PolicyGeneration
  classes : List FunctionClass
  kinds : List DeviceKind
  actions : List AuthorityAction
  hostScope : HostId := .empty
  scope : ScopeId := .empty
  semanticsCeiling : SemanticsMask := {}
  issuedAt : Micros
  expiresAt : Micros
  provenance : Provenance
  freshness : Freshness
  revoked : Bool := false
  maxUses : UInt64 := 0
  used : UInt64 := 0
  deriving DecidableEq

/-- `check_sorted_unique`, `src/authority.cpp:36-48`. -/
def checkSortedUnique {α ν : Type} [Coded α ν] [LT ν] [DecidableLT ν] [DecidableEq α]
    (values : List α) (field : String) : Result Unit := do
  require (values ≠ []) ⟨.malformedInput, field ++ " list is empty"⟩
  require (∀ p ∈ adjacent values, Coded.code p.1 < Coded.code p.2)
    ⟨.duplicateIdentity, field ++ " list must be sorted and unique"⟩

/-- `validate_authority_grant`, `src/authority.cpp:52-97`. -/
def validateAuthorityGrant (g : AuthorityGrant) (b : Bounds) : Result Unit := do
  require (g.id ≠ .empty) ⟨.invalidIdentifier, "authority grant identifier is empty"⟩
  checkSortedUnique g.classes "authority class"
  checkSortedUnique g.kinds "authority device kind"
  checkSortedUnique g.actions "authority action"
  require (Gen.isSet g.policyGeneration)
    ⟨.policyStale, "authority grant is not bound to a policy generation"⟩
  require (0 < g.issuedAt) ⟨.malformedInput, "authority grant issue time is missing"⟩
  require (g.issuedAt < g.expiresAt)
    ⟨.malformedInput, "authority grant validity interval is empty"⟩
  require g.provenance.isSet ⟨.provenanceMismatch, "authority grant provenance is unset"⟩
  require (0 < g.freshness.observedAt ∧ g.freshness.observedAt < g.freshness.validUntil)
    ⟨.malformedInput, "authority grant freshness is not usable"⟩
  require (g.freshness.validUntil ≤ g.expiresAt)
    ⟨.malformedInput, "authority grant freshness must not outlive the grant itself"⟩
  require (¬ (g.maxUses ≠ 0 ∧ g.maxUses < g.used))
    ⟨.outOfRange, "authority grant use counter exceeds its budget"⟩
  require (g.classes.length ≤ b.maxFunctions.toNat)
    ⟨.limitExceeded, "authority grant class list exceeds bound"⟩

/-- What an action is asked for: the arguments of `authority_admits` besides the grant,
`include/nof/authority.hpp:68-71`. -/
structure Intent where
  action : AuthorityAction
  cls : FunctionClass
  kind : DeviceKind
  host : HostId
  scope : ScopeId
  semantics : SemanticsMask
  policyGeneration : PolicyGeneration

/-- `authority_admits`, `src/authority.cpp:99-152`: the reason of the decision, which admits
exactly when it is `ok`. -/
def authorityAdmits (g : AuthorityGrant) (i : Intent) (now : Micros) : ReasonCode :=
  if g.revoked then .authorityWithdrawn
  else if g.policyGeneration ≠ i.policyGeneration then .policyStale
  else if g.expiresAt ≤ now then .authorityExpired
  else if g.freshness.isExpired now then .evidenceStale
  else if g.maxUses ≠ 0 ∧ g.maxUses ≤ g.used then .notAuthorized
  else if i.action ∉ g.actions then .authorityScopeMismatch
  else if i.cls ∉ g.classes then .authorityScopeMismatch
  else if i.kind ∉ g.kinds then .authorityScopeMismatch
  else if g.hostScope.isSet ∧ g.hostScope ≠ i.host then .authorityScopeMismatch
  else if g.scope.isSet ∧ g.scope ≠ i.scope then .authorityScopeMismatch
  else if !g.semanticsCeiling.isEmpty ∧ i.semantics.isSubsetOf g.semanticsCeiling = false then
    .authorityScopeMismatch
  else .ok

/-- What an admission establishes. -/
structure AuthorityGrant.Admits (g : AuthorityGrant) (i : Intent) (now : Micros) : Prop where
  held : g.revoked = false
  policy : g.policyGeneration = i.policyGeneration
  unexpired : ¬ g.expiresAt ≤ now
  fresh : ¬ g.freshness.isExpired now
  budget : ¬ (g.maxUses ≠ 0 ∧ g.maxUses ≤ g.used)
  action : i.action ∈ g.actions
  cls : i.cls ∈ g.classes
  kind : i.kind ∈ g.kinds
  host : ¬ (g.hostScope.isSet ∧ g.hostScope ≠ i.host)
  scope : ¬ (g.scope.isSet ∧ g.scope ≠ i.scope)
  ceiling : g.semanticsCeiling.isEmpty = false →
    i.semantics.isSubsetOf g.semanticsCeiling = true

/-- A grant admits an intent exactly under the conditions of every check. -/
theorem authorityAdmits_eq_ok {g : AuthorityGrant} {i : Intent} {now : Micros} :
    authorityAdmits g i now = .ok ↔ g.Admits i now := by
  unfold authorityAdmits
  constructor
  · intro h
    by_cases hheld : g.revoked = true
    · rw [if_pos hheld] at h
      cases h
    by_cases hpolicy : g.policyGeneration ≠ i.policyGeneration
    · rw [if_neg hheld, if_pos hpolicy] at h
      cases h
    by_cases hexpired : g.expiresAt ≤ now
    · rw [if_neg hheld, if_neg hpolicy, if_pos hexpired] at h
      cases h
    by_cases hfresh : g.freshness.isExpired now
    · rw [if_neg hheld, if_neg hpolicy, if_neg hexpired, if_pos hfresh] at h
      cases h
    by_cases hbudget : g.maxUses ≠ 0 ∧ g.maxUses ≤ g.used
    · rw [if_neg hheld, if_neg hpolicy, if_neg hexpired, if_neg hfresh, if_pos hbudget] at h
      cases h
    rw [if_neg hheld, if_neg hpolicy, if_neg hexpired, if_neg hfresh, if_neg hbudget] at h
    by_cases haction : i.action ∉ g.actions
    · rw [if_pos haction] at h
      cases h
    by_cases hcls : i.cls ∉ g.classes
    · rw [if_neg haction, if_pos hcls] at h
      cases h
    by_cases hkind : i.kind ∉ g.kinds
    · rw [if_neg haction, if_neg hcls, if_pos hkind] at h
      cases h
    by_cases hhost : g.hostScope.isSet ∧ g.hostScope ≠ i.host
    · rw [if_neg haction, if_neg hcls, if_neg hkind, if_pos hhost] at h
      cases h
    by_cases hscope : g.scope.isSet ∧ g.scope ≠ i.scope
    · rw [if_neg haction, if_neg hcls, if_neg hkind, if_neg hhost, if_pos hscope] at h
      cases h
    rw [if_neg haction, if_neg hcls, if_neg hkind, if_neg hhost, if_neg hscope] at h
    refine ⟨by simpa using hheld, by simpa using hpolicy, hexpired, hfresh, hbudget,
      by simpa using haction, by simpa using hcls, by simpa using hkind, hhost, hscope,
      fun hceiling ↦ ?_⟩
    by_contra hsubset
    rw [if_pos (by simp [hceiling, hsubset])] at h
    cases h
  · intro h
    have hceiling : ¬ ((!g.semanticsCeiling.isEmpty) = true ∧
        i.semantics.isSubsetOf g.semanticsCeiling = false) := by
      rintro ⟨hset, hsubset⟩
      rw [h.ceiling (by simpa using hset)] at hsubset
      cases hsubset
    rw [if_neg (by simp [h.held]), if_neg (by simp [h.policy]), if_neg h.unexpired,
      if_neg h.fresh, if_neg h.budget, if_neg (by simp [h.action]), if_neg (by simp [h.cls]),
      if_neg (by simp [h.kind]), if_neg h.host, if_neg h.scope, if_neg hceiling]

/-- A grant that admits an intent admits another action on the same target, and other semantics,
as far as it lists the one and its ceiling covers the other. -/
theorem AuthorityGrant.Admits.admits_iff {g : AuthorityGrant} {i : Intent} {now : Micros}
    (h : g.Admits i now) {action : AuthorityAction} {semantics : SemanticsMask} :
    g.Admits { i with action, semantics } now ↔
      action ∈ g.actions ∧ (g.semanticsCeiling.isEmpty = false →
        semantics.isSubsetOf g.semanticsCeiling = true) := by
  constructor
  · intro h'
    exact ⟨h'.action, h'.ceiling⟩
  · rintro ⟨haction, hceiling⟩
    exact ⟨h.held, h.policy, h.unexpired, h.fresh, h.budget, haction, h.cls, h.kind, h.host,
      h.scope, hceiling⟩

end OffloadFabric
