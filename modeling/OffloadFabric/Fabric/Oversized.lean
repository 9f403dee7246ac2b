import OffloadFabric.Fabric.Payload
import OffloadFabric.Lib.Errors

/-!
# Encodings refuse sizes only

The sticky writer of `src/wire.cpp:14-60` keeps one kind of error: the value is larger than its
limit or than the width of a length.
-/

namespace OffloadFabric

open Lib Lib.Coder

/-- The error of an input above a bound. -/
def Error.Oversized (e : Error) : Prop := e.code = .oversizedInput

namespace Writer

instance (data : Bytes) : Raises Error.Oversized (append data) where
  of_run {c s e} h := by
    rw [run_append] at h
    split at h
    · cases h
    · cases h
      rfl

instance (v : UInt8) : Raises Error.Oversized (u8 v) :=
  inferInstanceAs (Raises _ (append _))

instance (v : UInt16) : Raises Error.Oversized (u16 v) :=
  inferInstanceAs (Raises _ (append _))

instance (v : UInt32) : Raises Error.Oversized (u32 v) :=
  inferInstanceAs (Raises _ (append _))

instance (v : UInt64) : Raises Error.Oversized (u64 v) :=
  inferInstanceAs (Raises _ (append _))

instance (v : Int64) : Raises Error.Oversized (i64 v) :=
  inferInstanceAs (Raises _ (append _))

instance (v : Bool) : Raises Error.Oversized (boolean v) :=
  inferInstanceAs (Raises _ (append _))

instance (v : Digest) : Raises Error.Oversized (digest v) :=
  inferInstanceAs (Raises _ (append _))

instance (v : SemanticsMask) : Raises Error.Oversized (semantics v) :=
  inferInstanceAs (Raises _ (append _))

instance (v : FunctionClass) : Raises Error.Oversized (functionClass v) :=
  inferInstanceAs (Raises _ (append _))

instance (v : ReasonCode) : Raises Error.Oversized (reasonCode v) :=
  inferInstanceAs (Raises _ (append _))

instance {α : Type} [Coded α UInt8] (v : α) : Raises Error.Oversized (enum8 v) :=
  inferInstanceAs (Raises _ (append _))

instance (detail : String) :
    Raises Error.Oversized (throw ⟨.oversizedInput, detail⟩ : Writer) where
  of_run h := by
    cases h
    rfl

instance (v : Bytes) : Raises Error.Oversized (text v) := by
  unfold text
  infer_instance

instance {d : IdDomain} (v : Token d) : Raises Error.Oversized (token v) :=
  inferInstanceAs (Raises _ (text _))

instance (n : Nat) : Raises Error.Oversized (count n) := by
  unfold count
  infer_instance

/-- An encoding fails at its limit only. -/
theorem fails_encode (w : Writer) [h : Raises Error.Oversized w] (limit : Nat) :
    Fails Error.Oversized (w.encode limit) := by
  intro e he
  unfold encode at he
  cases hrun : w.run limit [] with
  | mk r out =>
      rw [hrun] at he
      cases r with
      | ok u => cases he
      | error e' =>
          cases he
          exact h.of_run (c := limit) (s := []) (congrArg Prod.fst hrun)

end Writer

namespace Wire

instance (v : Provenance) : Raises Error.Oversized (encProvenance v) := by
  unfold encProvenance
  infer_instance

instance (v : Freshness) : Raises Error.Oversized (encFreshness v) := by
  unfold encFreshness
  infer_instance

instance (v : IncarnationId) : Raises Error.Oversized (encIncarnation v) := by
  unfold encIncarnation
  infer_instance

instance (v : FencingToken) : Raises Error.Oversized (encFence v) := by
  unfold encFence
  infer_instance

instance (v : CoordinatorEpoch) : Raises Error.Oversized (encEpoch v) := by
  unfold encEpoch
  infer_instance

instance (v : GenerationBinding) : Raises Error.Oversized (encBinding v) := by
  unfold encBinding
  infer_instance

instance (v : DemandVector) : Raises Error.Oversized (encDemand v) := by
  unfold encDemand
  infer_instance

instance (v : ScopeSpec) : Raises Error.Oversized (encScopeSpec v) := by
  unfold encScopeSpec
  infer_instance

instance {α : Type} (e : α → Writer) [∀ a, Raises Error.Oversized (e a)] (items : List α) :
    Raises Error.Oversized (encList e items) := by
  unfold encList
  infer_instance

instance (v : CapacityVector) : Raises Error.Oversized (encCapacity v) :=
  inferInstanceAs (Raises _ (encDemand _))

instance (v : SemanticVersion) : Raises Error.Oversized (encVersion v) := by
  unfold encVersion
  infer_instance

instance (v : VersionRange) : Raises Error.Oversized (encVersionRange v) := by
  unfold encVersionRange
  infer_instance

instance (labels : List Bytes) : Raises Error.Oversized (encLabels labels) :=
  inferInstanceAs (Raises _ (encList _ _))

instance (items : List DeviceKind) : Raises Error.Oversized (encDeviceKindList items) :=
  inferInstanceAs (Raises _ (encList _ _))

instance (v : HostRecord) : Raises Error.Oversized (encHostRecord v) := by
  unfold encHostRecord
  infer_instance

instance (v : DeviceRecord) : Raises Error.Oversized (encDeviceRecord v) := by
  unfold encDeviceRecord
  infer_instance

instance (v : LinkRecord) : Raises Error.Oversized (encLink v) := by
  unfold encLink
  infer_instance

instance (v : TopologySnapshot) : Raises Error.Oversized (encTopology v) := by
  unfold encTopology
  infer_instance

instance (v : FunctionDescriptor) : Raises Error.Oversized (encFunction v) := by
  unfold encFunction
  infer_instance

instance (v : CapabilityRecord) : Raises Error.Oversized (encCapabilityRecord v) := by
  unfold encCapabilityRecord
  infer_instance

instance (v : PolicyRule) : Raises Error.Oversized (encPolicyRule v) := by
  unfold encPolicyRule
  infer_instance

instance (v : PolicySnapshot) : Raises Error.Oversized (encPolicy v) := by
  unfold encPolicy
  infer_instance

instance (v : AuthorityGrant) : Raises Error.Oversized (encAuthority v) := by
  unfold encAuthority
  infer_instance

instance (v : DeviceObservation) : Raises Error.Oversized (encObservation v) := by
  unfold encObservation
  infer_instance

instance (v : TransitionRecord) : Raises Error.Oversized (encTransitionRecord v) := by
  unfold encTransitionRecord
  infer_instance

instance (v : EffectRecord) : Raises Error.Oversized (encEffectRecord v) := by
  unfold encEffectRecord
  infer_instance

instance (v : AssignmentRecord) : Raises Error.Oversized (encAssignment v) := by
  unfold encAssignment
  infer_instance

instance (v : AssignmentPlan) : Raises Error.Oversized (encPlan v) := by
  unfold encPlan
  infer_instance

/-! ## Durable payloads -/

instance (v : RecordedAssignment) : Raises Error.Oversized (encRecordedAssignment v) := by
  unfold encRecordedAssignment
  infer_instance

instance (v : RecordedRequest) : Raises Error.Oversized (encRecordedRequest v) := by
  unfold encRecordedRequest
  infer_instance

instance (b : Bounds) (e : Error) : Raises Error.Oversized (encErrorEnvelope b e) := by
  unfold encErrorEnvelope
  infer_instance

instance (v : ExclusivityKey × Micros) : Raises Error.Oversized (encReassignment v) := by
  unfold encReassignment
  infer_instance

instance {α : Type} (e : α → Writer) [∀ a, Raises Error.Oversized (e a)] (items : List α) :
    Raises Error.Oversized (encEntries e items) := by
  unfold encEntries
  infer_instance

instance {α : Type} (e : α → Writer) [h : ∀ a, Raises Error.Oversized (e a)] (v : Option α) :
    Raises Error.Oversized (encOption e v) := by
  cases v with
  | none => exact inferInstanceAs (Raises _ (Writer.boolean _))
  | some a =>
      unfold encOption
      infer_instance

instance (v : ScopeId × ScopeSpec) : Raises Error.Oversized (encScopeEntry v) := by
  unfold encScopeEntry
  infer_instance

instance (v : SourceKey × SourceState) : Raises Error.Oversized (encSourceEntry v) := by
  unfold encSourceEntry
  infer_instance

instance (v : ExclusivityKey × List Micros) : Raises Error.Oversized (encReassignmentEntry v) := by
  unfold encReassignmentEntry
  infer_instance

instance (v : RequestId × IdempotencyEntry) : Raises Error.Oversized (encIdempotencyEntry v) := by
  unfold encIdempotencyEntry
  infer_instance

instance (s : FabricState) : Raises Error.Oversized (encState s) := by
  unfold encState
  infer_instance

end Wire

end OffloadFabric
