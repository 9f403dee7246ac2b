import OffloadFabric.Model.Request
import OffloadFabric.Lib.Table

/-!
# Runtime state

`src/detail/fabric_state.hpp` with the counters of `src/fabric.cpp:83-140`. Collections keyed by
an identity of their own values are tables, so a lookup gives a record of the identity asked
for; the flags `has_topology` and `has_policy` are the presence of the snapshot.
-/

namespace OffloadFabric

open Lib

/-- `EvidenceDomain`, `src/detail/fabric_state.hpp:30-36`. -/
inductive EvidenceDomain where
  | topology | capability | policy | observation | authority
  deriving DecidableEq, Repr

namespace EvidenceDomain

/-- The durable number of a domain, `src/detail/fabric_state.hpp:31-35`. -/
def code : EvidenceDomain → UInt8
  | .topology => 1
  | .capability => 2
  | .policy => 3
  | .observation => 4
  | .authority => 5

/-- The domain a raw number names, `src/fabric.cpp:797-799`. -/
def ofCode? : UInt8 → Option EvidenceDomain
  | 1 => some .topology
  | 2 => some .capability
  | 3 => some .policy
  | 4 => some .observation
  | 5 => some .authority
  | _ => none

instance : Coded EvidenceDomain UInt8 where
  code := code
  ofCode? := ofCode?
  ofCode?_code c := by cases c <;> rfl

instance : Ord EvidenceDomain := ⟨compareOn code⟩

instance : Std.TransOrd EvidenceDomain := inferInstanceAs (Std.TransCmp (compareOn code))

instance : Std.LawfulEqOrd EvidenceDomain where
  eq_of_compare {a b} h := by
    have hcode : compare a.code b.code = .eq := h
    have heq := Std.LawfulEqCmp.eq_of_compare hcode
    cases a <;> cases b <;> first | rfl | cases heq

end EvidenceDomain

/-- `CapabilityKey`, `src/detail/fabric_state.hpp:40-51`. -/
structure CapabilityKey where
  device : DeviceId
  cls : FunctionClass
  deriving DecidableEq

namespace CapabilityKey

instance : Ord CapabilityKey := ⟨compareLex (compareOn device) (compareOn cls)⟩

instance : Std.TransOrd CapabilityKey :=
  inferInstanceAs (Std.TransCmp (compareLex (compareOn device) (compareOn cls)))

instance : Std.LawfulEqOrd CapabilityKey where
  eq_of_compare {a b} h := by
    have hkey : compareLex (compareOn device) (compareOn cls) a b = .eq := h
    obtain ⟨hd, hc⟩ := compareLex_eq_eq.mp hkey
    have hdevice : compare a.device b.device = .eq := hd
    have hcls : compare a.cls b.cls = .eq := hc
    cases a
    cases b
    rw [mk.injEq]
    exact ⟨Std.LawfulEqCmp.eq_of_compare hdevice, Std.LawfulEqCmp.eq_of_compare hcls⟩

end CapabilityKey

/-- `SourceKey`, `src/detail/fabric_state.hpp:53-64`. -/
structure SourceKey where
  source : SourceId
  domain : EvidenceDomain
  deriving DecidableEq

namespace SourceKey

instance : Ord SourceKey := ⟨compareLex (compareOn source) (compareOn domain)⟩

instance : Std.TransOrd SourceKey :=
  inferInstanceAs (Std.TransCmp (compareLex (compareOn source) (compareOn domain)))

instance : Std.LawfulEqOrd SourceKey where
  eq_of_compare {a b} h := by
    have hkey : compareLex (compareOn source) (compareOn domain) a b = .eq := h
    obtain ⟨hs, hd⟩ := compareLex_eq_eq.mp hkey
    have hsource : compare a.source b.source = .eq := hs
    have hdomain : compare a.domain b.domain = .eq := hd
    cases a
    cases b
    rw [mk.injEq]
    exact ⟨Std.LawfulEqCmp.eq_of_compare hsource, Std.LawfulEqCmp.eq_of_compare hdomain⟩

end SourceKey

/-- `SourceState`, `src/detail/fabric_state.hpp:75-86`. -/
structure SourceState where
  lastSequence : UInt64 := 0
  lastDigest : Digest := .zero
  restartFloor : UInt64 := 0
  seen : Bool := false
  deriving DecidableEq

/-- `SourceState::is_current`, `src/detail/fabric_state.hpp:83-85`. -/
def SourceState.isCurrent (s : SourceState) (sequence : UInt64) : Bool :=
  s.seen && sequence > s.restartFloor

/-- `IdempotencyEntry`, `src/detail/fabric_state.hpp:88-93`. -/
structure IdempotencyEntry where
  requestFingerprint : Digest
  outcome : ReasonCode
  response : Bytes
  atTime : Micros
  deriving DecidableEq

instance : Keyed FunctionDescriptor FunctionId := ⟨FunctionDescriptor.id⟩
instance : Keyed DeviceObservation DeviceId := ⟨DeviceObservation.device⟩
instance : Keyed CapabilityRecord CapabilityKey := ⟨fun r ↦ ⟨r.device, r.cls⟩⟩
instance : Keyed AuthorityGrant AuthorityId := ⟨AuthorityGrant.id⟩
instance : Keyed AssignmentRecord AssignmentId := ⟨AssignmentRecord.id⟩

@[simp] theorem key_assignment (r : AssignmentRecord) : key r = r.id := rfl

@[simp] theorem key_authority (g : AuthorityGrant) : key g = g.id := rfl

/-- `FabricState`, `src/detail/fabric_state.hpp:95-127`. -/
structure FabricState where
  epoch : CoordinatorEpoch := ⟨0, .empty⟩
  epochCounter : UInt64 := 0
  previousEpochCounter : UInt64 := 0
  nextAssignmentOrdinal : UInt64 := 0
  nextLease : UInt64 := 0
  nextAttempt : UInt64 := 0
  nextFenceSequence : UInt64 := 0
  functions : Table FunctionDescriptor := .empty
  observations : Table DeviceObservation := .empty
  capabilities : Table CapabilityRecord := .empty
  topology : Option TopologySnapshot := none
  topologyDigest : Digest := .zero
  policy : Option PolicySnapshot := none
  policyDigest : Digest := .zero
  authority : Table AuthorityGrant := .empty
  assignments : Table AssignmentRecord := .empty
  exclusiveByClass : Std.ExtTreeMap ExclusivityKey AssignmentId := ∅
  exclusiveByScope : Std.ExtTreeMap ScopeId AssignmentId := ∅
  scopeSpecs : Std.ExtTreeMap ScopeId ScopeSpec := ∅
  committed : Std.ExtTreeMap DeviceId DemandVector := ∅
  sources : Std.ExtTreeMap SourceKey SourceState := ∅
  idempotency : Std.ExtTreeMap RequestId IdempotencyEntry := ∅
  idempotencyOrder : List RequestId := []
  reassignments : Std.ExtTreeMap ExclusivityKey (List Micros) := ∅

namespace FabricState

/-- `committed_demand_for`, `src/fabric.cpp:59-65`. -/
def committedDemandFor (s : FabricState) (d : DeviceId) : DemandVector :=
  (s.committed[d]?).getD {}

/-- `evidence_current`, `src/fabric.cpp:1001-1005`. -/
def evidenceCurrent (s : FabricState) (source : SourceId) (domain : EvidenceDomain)
    (sequence : UInt64) : Bool :=
  match s.sources[SourceKey.mk source domain]? with
  | some entry => entry.isCurrent sequence
  | none => false

/-- `mark_source`, `src/fabric.cpp:1530-1536`. -/
def markSource (s : FabricState) (source : SourceId) (domain : EvidenceDomain)
    (sequence : UInt64) (digest : Digest) : FabricState :=
  let entry := (s.sources[SourceKey.mk source domain]?).getD {}
  { s with
    sources := s.sources.insert ⟨source, domain⟩
      { entry with lastSequence := sequence, lastDigest := digest, seen := true } }

/-- `lookup_capability`, `src/fabric.cpp:1130-1140`. -/
def lookupCapability (s : FabricState) (d : DeviceId) (cls : FunctionClass) :
    Option CapabilityRecord :=
  s.capabilities.find? ⟨d, cls⟩

/-- The policy generation an authority check compares with, `src/fabric.cpp:3791-3792`. -/
def policyGeneration (s : FabricState) : PolicyGeneration :=
  match s.policy with
  | some p => p.generation
  | none => 0

/-! ## Deterministic identifiers and tokens -/

/-- The ordinal a hexadecimal text spells, `src/fabric.cpp:87-99`; `none` at a foreign digit. -/
def hexValue (value : UInt64) : Bytes → Option UInt64
  | [] => some value
  | c :: cs =>
      if 48 ≤ c ∧ c ≤ 57 then hexValue (value <<< 4 ||| (c - 48).toUInt64) cs
      else if 97 ≤ c ∧ c ≤ 102 then hexValue (value <<< 4 ||| (c - 97 + 10).toUInt64) cs
      else none

/-- `parse_ordinal`, `src/fabric.cpp:83-101`. -/
def parseOrdinal (token head : Bytes) : UInt64 :=
  if token.length = head.length + 16 ∧ token.take head.length = head then
    (hexValue 0 (token.drop head.length)).getD 0
  else 0

/-- `issue_assignment_id`, `src/fabric.cpp:103-110`. -/
def issueAssignmentId (s : FabricState) : Result (AssignmentId × FabricState) :=
  match checkedAdd s.nextAssignmentOrdinal 1 with
  | none => .error ⟨.arithmeticOverflow, "assignment ordinal exhausted"⟩
  | some ordinal => do
      let id ← Token.parse (ascii "as-" ++ hex64 ordinal)
      .ok (id, { s with nextAssignmentOrdinal := ordinal })

/-- `issue_lease`, `src/fabric.cpp:112-119`. -/
def issueLease (s : FabricState) : Result (LeaseId × FabricState) :=
  match checkedAdd s.nextLease 1 with
  | none => .error ⟨.arithmeticOverflow, "lease counter exhausted"⟩
  | some value => .ok (value, { s with nextLease := value })

/-- `issue_attempt`, `src/fabric.cpp:121-128`. -/
def issueAttempt (s : FabricState) : Result (AttemptId × FabricState) :=
  match checkedAdd s.nextAttempt 1 with
  | none => .error ⟨.arithmeticOverflow, "attempt counter exhausted"⟩
  | some value => .ok (value, { s with nextAttempt := value })

/-- `issue_fence`, `src/fabric.cpp:130-140`. -/
def issueFence (s : FabricState) : Result (FencingToken × FabricState) :=
  match checkedAdd s.nextFenceSequence 1 with
  | none => .error ⟨.arithmeticOverflow, "fencing token counter exhausted"⟩
  | some sequence => .ok (⟨s.epoch.counter, sequence⟩, { s with nextFenceSequence := sequence })

end FabricState

end OffloadFabric
