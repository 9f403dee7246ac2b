import OffloadFabric.Model.Evidence

/-!
# Assignments and effect reports

`include/nof/assignment.hpp` and `src/assignment.cpp`: the durable record that binds one
function on one governed scope to one device incarnation, its life cycle and the reports of
the enforcement plane.
-/

namespace OffloadFabric

open Lib

/-- `Exclusivity`, `include/nof/assignment.hpp:30-33`. -/
inductive Exclusivity where
  | shared | exclusive
  deriving DecidableEq, Repr

namespace Exclusivity

/-- The durable number of an exclusivity, `include/nof/assignment.hpp:31-32`. -/
def code : Exclusivity → UInt8
  | .shared => 1
  | .exclusive => 2

/-- The exclusivity a raw number names, `src/assignment.cpp:8-16`. -/
def ofCode? : UInt8 → Option Exclusivity
  | 1 => some .shared
  | 2 => some .exclusive
  | _ => none

instance : Coded Exclusivity UInt8 where
  code := code
  ofCode? := ofCode?
  ofCode?_code c := by cases c <;> rfl

end Exclusivity

/-- `ExecutionMode`, `include/nof/assignment.hpp:38-41`. -/
inductive ExecutionMode where
  | offloaded | hostFallback
  deriving DecidableEq, Repr

namespace ExecutionMode

/-- The durable number of a mode, `include/nof/assignment.hpp:39-40`. -/
def code : ExecutionMode → UInt8
  | .offloaded => 1
  | .hostFallback => 2

/-- The mode a raw number names, `src/assignment.cpp:29-37`. -/
def ofCode? : UInt8 → Option ExecutionMode
  | 1 => some .offloaded
  | 2 => some .hostFallback
  | _ => none

instance : Coded ExecutionMode UInt8 where
  code := code
  ofCode? := ofCode?
  ofCode?_code c := by cases c <;> rfl

end ExecutionMode

/-- `AssignmentState`, `include/nof/assignment.hpp:46-58`. -/
inductive AssignmentState where
  | planned | authorized | dispatched | acknowledged | appliedVerified | degraded | suspended
  | revoked | superseded | rejected | failed
  deriving DecidableEq, Repr

namespace AssignmentState

/-- The durable number of a state, `include/nof/assignment.hpp:47-57`. -/
def code : AssignmentState → UInt8
  | .planned => 1
  | .authorized => 2
  | .dispatched => 3
  | .acknowledged => 4
  | .appliedVerified => 5
  | .degraded => 6
  | .suspended => 7
  | .revoked => 8
  | .superseded => 9
  | .rejected => 10
  | .failed => 11

/-- The state a raw number names, `src/assignment.cpp:50-76`. -/
def ofCode? : UInt8 → Option AssignmentState
  | 1 => some .planned
  | 2 => some .authorized
  | 3 => some .dispatched
  | 4 => some .acknowledged
  | 5 => some .appliedVerified
  | 6 => some .degraded
  | 7 => some .suspended
  | 8 => some .revoked
  | 9 => some .superseded
  | 10 => some .rejected
  | 11 => some .failed
  | _ => none

instance : Coded AssignmentState UInt8 where
  code := code
  ofCode? := ofCode?
  ofCode?_code c := by cases c <;> rfl

/-- `holds_authority`, `src/assignment.cpp:107-117`. -/
def holdsAuthority : AssignmentState → Bool
  | .authorized | .dispatched | .acknowledged | .appliedVerified => true
  | _ => false

/-- `is_live`, `src/assignment.cpp:119-132`. -/
def isLive : AssignmentState → Bool
  | .authorized | .dispatched | .acknowledged | .appliedVerified | .degraded | .suspended
  | .planned => true
  | _ => false

/-- `is_terminal`, `src/assignment.cpp:134-144`. -/
def isTerminal : AssignmentState → Bool
  | .revoked | .superseded | .rejected | .failed => true
  | _ => false

/-- A state is terminal exactly when it is not live. -/
theorem isTerminal_eq_not_isLive (s : AssignmentState) : s.isTerminal = !s.isLive := by
  cases s <;> rfl

theorem isLive_of_holdsAuthority {s : AssignmentState} (h : s.holdsAuthority = true) :
    s.isLive = true := by
  cases s <;> first | rfl | cases h

end AssignmentState

/-- `EffectOutcome`, `include/nof/assignment.hpp:69-74`. -/
inductive EffectOutcome where
  | applied | rejected | failed | unknown
  deriving DecidableEq, Repr

namespace EffectOutcome

/-- The durable number of an outcome, `include/nof/assignment.hpp:70-73`. -/
def code : EffectOutcome → UInt8
  | .applied => 1
  | .rejected => 2
  | .failed => 3
  | .unknown => 4

/-- The outcome a raw number names, `src/assignment.cpp:150-162`. -/
def ofCode? : UInt8 → Option EffectOutcome
  | 1 => some .applied
  | 2 => some .rejected
  | 3 => some .failed
  | 4 => some .unknown
  | _ => none

instance : Coded EffectOutcome UInt8 where
  code := code
  ofCode? := ofCode?
  ofCode?_code c := by cases c <;> rfl

end EffectOutcome

/-- `GenerationBinding`, `include/nof/assignment.hpp:81-89`. -/
structure GenerationBinding where
  topology : TopologyGeneration := 0
  capability : CapabilityGeneration := 0
  policy : PolicyGeneration := 0
  assignment : AssignmentGeneration := 0
  schema : SchemaGeneration := 0
  deriving DecidableEq

/-- `TransitionRecord`, `include/nof/assignment.hpp:91-99`. -/
structure TransitionRecord where
  source : AssignmentState
  target : AssignmentState
  reason : ReasonCode
  atTime : Micros
  fence : FencingToken
  deriving DecidableEq

/-- `EffectRecord`, `include/nof/assignment.hpp:101-112`. -/
structure EffectRecord where
  attempt : AttemptId
  fence : FencingToken
  generation : AssignmentGeneration
  incarnation : IncarnationId
  capabilityGeneration : CapabilityGeneration
  outcome : EffectOutcome
  reason : ReasonCode
  observedAt : Micros
  deriving DecidableEq

/-- `AssignmentRecord`, `include/nof/assignment.hpp:114-148`. -/
structure AssignmentRecord where
  id : AssignmentId
  generation : AssignmentGeneration
  function : FunctionId
  cls : FunctionClass
  scope : ScopeSpec
  scopeId : ScopeId
  exclusivity : Exclusivity
  exclusiveKey : ExclusiveKeyMode
  mode : ExecutionMode
  state : AssignmentState
  device : DeviceId
  host : HostId
  kind : DeviceKind
  incarnation : IncarnationId
  demand : DemandVector
  binding : GenerationBinding
  authority : AuthorityId
  lease : LeaseId
  fence : FencingToken
  attempt : AttemptId
  requestFingerprint : Digest
  provenance : Provenance
  freshness : Freshness
  stateReason : ReasonCode
  createdAt : Micros
  updatedAt : Micros
  history : List TransitionRecord
  effects : List EffectRecord
  deriving DecidableEq

/-- `EffectReport`, `include/nof/assignment.hpp:182-196`. -/
structure EffectReport where
  requestId : RequestId := .empty
  assignment : AssignmentId
  attempt : AttemptId
  generation : AssignmentGeneration
  fence : FencingToken
  incarnation : IncarnationId
  capabilityGeneration : CapabilityGeneration
  outcome : EffectOutcome
  detailReason : ReasonCode := .ok
  observedAt : Micros
  provenance : Provenance := ⟨.empty, 0⟩
  deriving DecidableEq

/-- `AssignmentFilter`, `include/nof/assignment.hpp:152-161`. -/
structure AssignmentFilter where
  function : FunctionId := .empty
  scope : ScopeId := .empty
  device : DeviceId := .empty
  state : AssignmentState := .planned
  filterByState : Bool := false
  includeTerminal : Bool := false
  deriving DecidableEq

/-- `ScopeView`, `include/nof/assignment.hpp:163-177`. -/
structure ScopeView where
  spec : ScopeSpec
  scope : ScopeId
  live : List AssignmentId
  exclusiveClaims : List AssignmentId
  exclusiveHolder : AssignmentId
  exclusiveHolderIsWholeScope : Bool
  exclusiveHeld : Bool
  deriving DecidableEq

namespace AssignmentRecord

/-- Whether the record holds exclusive authority over its scope. -/
def holdsExclusive (r : AssignmentRecord) : Bool :=
  r.exclusivity == .exclusive && r.state.holdsAuthority

/-- The exclusivity key of a record, `src/fabric.cpp:950-952`. -/
def exclusivityKey (r : AssignmentRecord) : ExclusivityKey := ⟨r.scopeId, r.cls⟩

/-- A transition of the record, entered into its history as every operation does it:
state, reason, time and one history entry carrying the current token. -/
def transition (r : AssignmentRecord) (next : AssignmentState) (reason : ReasonCode)
    (now : Micros) : AssignmentRecord :=
  { r with
    state := next
    stateReason := reason
    updatedAt := now
    history := r.history ++ [⟨r.state, next, reason, now, r.fence⟩] }

/-- `trim_history`, `src/fabric.cpp:1546-1561`: the oldest entries beyond the bounds go. -/
def trimHistory (b : Bounds) (r : AssignmentRecord) : AssignmentRecord :=
  { r with
    history := r.history.drop (r.history.length - b.maxHistoryPerAssignment.toNat)
    effects := r.effects.drop (r.effects.length - b.maxEffectsPerAssignment.toNat) }

/-- The record entering a state, trimmed, as every operation but an effect report stores it. -/
def enter (r : AssignmentRecord) (b : Bounds) (next : AssignmentState) (reason : ReasonCode)
    (now : Micros) : AssignmentRecord :=
  (r.transition next reason now).trimHistory b

/-- A record in a later state of the same authority: what an operation on it moves is its state
and what is noted of that. -/
def Continues (r r' : AssignmentRecord) : Prop :=
  r' = { r with
    state := r'.state
    stateReason := r'.stateReason
    updatedAt := r'.updatedAt
    history := r'.history
    effects := r'.effects }

theorem continues_enter (r : AssignmentRecord) (b : Bounds) (next : AssignmentState)
    (reason : ReasonCode) (now : Micros) : r.Continues (r.enter b next reason now) := rfl

@[simp] theorem enter_state (r : AssignmentRecord) (b : Bounds) (next : AssignmentState)
    (reason : ReasonCode) (now : Micros) : (r.enter b next reason now).state = next := rfl

@[simp] theorem enter_id (r : AssignmentRecord) (b : Bounds) (next : AssignmentState)
    (reason : ReasonCode) (now : Micros) : (r.enter b next reason now).id = r.id := rfl

end AssignmentRecord

end OffloadFabric
