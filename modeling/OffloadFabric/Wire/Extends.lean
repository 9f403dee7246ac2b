import OffloadFabric.Wire.Records

/-!
# Encodings inside encodings

Every writer of `Wire.Binary` and `Wire.Records` only appends, so a part of an encoding that
fitted is an encoding of its own that fits.
-/

namespace OffloadFabric

open Lib Lib.Coder

namespace Writer

instance (data : Bytes) : Extends (append data) where
  run_eq {c s t} h := by
    rw [run_append] at h
    split at h
    · next hle =>
        cases h
        refine ⟨data, rfl, ?_, fun {c' s'} hle' ↦ ?_⟩
        · rw [List.length_append]
          omega
        · rw [run_append, if_pos (by rwa [List.length_append] at hle')]
    · cases h

instance (v : UInt8) : Extends (u8 v) := inferInstanceAs (Extends (append _))
instance (v : UInt16) : Extends (u16 v) := inferInstanceAs (Extends (append _))
instance (v : UInt32) : Extends (u32 v) := inferInstanceAs (Extends (append _))
instance (v : UInt64) : Extends (u64 v) := inferInstanceAs (Extends (append _))
instance (v : Int64) : Extends (i64 v) := inferInstanceAs (Extends (append _))
instance (v : Bool) : Extends (boolean v) := inferInstanceAs (Extends (append _))
instance (v : Digest) : Extends (digest v) := inferInstanceAs (Extends (append _))
instance (v : SemanticsMask) : Extends (semantics v) := inferInstanceAs (Extends (append _))
instance (v : FunctionClass) : Extends (functionClass v) := inferInstanceAs (Extends (append _))
instance (v : ReasonCode) : Extends (reasonCode v) := inferInstanceAs (Extends (append _))

instance {α : Type} [Coded α UInt8] (v : α) : Extends (enum8 v) :=
  inferInstanceAs (Extends (append _))

instance (v : Bytes) : Extends (text v) := by
  unfold text
  infer_instance

instance {d : IdDomain} (v : Token d) : Extends (token v) := inferInstanceAs (Extends (text _))

instance (n : Nat) : Extends (count n) := by
  unfold count
  infer_instance

/-- A writer that never succeeds without appending something. -/
class Grows (w : Writer) : Prop where
  length_lt : ∀ {c : Nat} {s t : Bytes}, w.run c s = (.ok (), t) → s.length < t.length

theorem Grows.append {data : Bytes} (h : data ≠ []) : Grows (append data) where
  length_lt {c s t} hw := by
    obtain ⟨p, rfl, rfl⟩ := emits_append data s t hw
    have := List.length_pos_iff.mpr h
    rw [List.length_append]
    omega

instance (w₁ w₂ : Writer) [h₁ : Grows w₁] [h₂ : Extends w₂] :
    Grows (w₁ >>= fun _ ↦ w₂) where
  length_lt h := by
    obtain ⟨_, u, hu, ht⟩ := run_bind_ok h
    have hlt := h₁.length_lt hu
    obtain ⟨p, rfl, -, -⟩ := h₂.run_eq ht
    rw [List.length_append]
    omega

instance (v : UInt32) : Grows (u32 v) := .append (by simp [le])

instance (v : Int64) : Grows (i64 v) := .append (by simp [le])

instance (v : Bytes) : Grows (text v) where
  length_lt {c s t} h := by
    unfold text at h
    split at h
    · exact Grows.length_lt h
    · cases h

instance {d : IdDomain} (v : Token d) : Grows (token v) := inferInstanceAs (Grows (text _))

/-- A writer run on each element appends at least one byte for each. -/
theorem length_le_of_each {α : Type} {w : α → Writer} [h : ∀ a, Grows (w a)] {xs : List α}
    {c : Nat} {s t : Bytes} (hw : (each w xs).run c s = (.ok (), t)) :
    s.length + xs.length ≤ t.length := by
  induction xs generalizing s with
  | nil =>
      cases hw
      simp
  | cons x xs ih =>
      obtain ⟨_, u, hu, ht⟩ := run_bind_ok hw
      have := (h x).length_lt hu
      have := ih ht
      rw [List.length_cons]
      omega

/-- A successful encoding as the run of its writer. -/
theorem encode_eq_ok {w : Writer} {limit : Nat} {p : Bytes} :
    w.encode limit = .ok p ↔ w.run limit [] = (.ok (), p) := by
  unfold encode
  cases w.run limit [] with
  | mk r out =>
      cases r with
      | error e => simp
      | ok u => simp

/-- An encoding is within its limit. -/
theorem length_le_of_encode {w : Writer} [h : Extends w] {limit : Nat} {p : Bytes}
    (hw : w.encode limit = .ok p) : p.length ≤ limit := by
  obtain ⟨q, hq, hlen, -⟩ := h.run_eq (encode_eq_ok.mp hw)
  rw [hq]
  exact hlen.trans (by simp)

/-- What fitted behind other bytes fits alone. -/
theorem encode_of_run {w : Writer} [h : Extends w] {limit : Nat} {s t : Bytes}
    (hw : w.run limit s = (.ok (), t)) : ∃ p, t = s ++ p ∧ w.encode limit = .ok p := by
  obtain ⟨p, hp, hlen, hrun⟩ := h.run_eq hw
  refine ⟨p, hp, encode_eq_ok.mpr (hrun ?_)⟩
  rw [List.length_append] at hlen
  rw [List.nil_append]
  omega

/-- The first part of an encoding that fits, fits. -/
theorem encode_bind_left {w₁ w₂ : Writer} [Extends w₁] {limit : Nat} {p : Bytes}
    (h : Writer.encode (w₁ >>= fun _ ↦ w₂) limit = .ok p) : ∃ q, w₁.encode limit = .ok q := by
  obtain ⟨u, t, hu, -⟩ := run_bind_ok (encode_eq_ok.mp h)
  obtain ⟨q, -, hq⟩ := encode_of_run hu
  exact ⟨q, hq⟩

/-- The last part of an encoding that fits, fits. -/
theorem encode_bind_right {w₁ w₂ : Writer} [Extends w₂] {limit : Nat} {p : Bytes}
    (h : Writer.encode (w₁ >>= fun _ ↦ w₂) limit = .ok p) : ∃ q, w₂.encode limit = .ok q := by
  obtain ⟨u, t, -, ht⟩ := run_bind_ok (encode_eq_ok.mp h)
  obtain ⟨q, -, hq⟩ := encode_of_run ht
  exact ⟨q, hq⟩

/-- What a reader makes of an encoding: the written value, when it is readable. -/
theorem decode_eq_ok {α : Type} {w : Writer} {limit n : Nat} {g : Reader α} {a a' : α}
    {P : Prop} {p : Bytes} (h : RoundTrip w limit g n a P) (hw : w.encode limit = .ok p) :
    g.decode n p = .ok a' ↔ P ∧ a' = a := by
  obtain ⟨q, hq, ha, hr⟩ := h [] p (encode_eq_ok.mp hw)
  rw [List.nil_append] at hq
  subst hq
  unfold Reader.decode
  by_cases hP : P
  · have hread := ha hP []
    rw [List.append_nil] at hread
    rw [hread, Except.ok.injEq, eq_comm]
    exact (and_iff_right hP).symm
  · obtain ⟨e, t, hread⟩ := hr hP []
    rw [List.append_nil] at hread
    rw [hread]
    simp [hP]

/-- An encoding fits a limit of its own size. -/
theorem encode_length {w : Writer} [h : Extends w] {limit : Nat} {p : Bytes}
    (hw : w.encode limit = .ok p) : w.encode p.length = .ok p := by
  obtain ⟨q, hq, -, hrun⟩ := h.run_eq (encode_eq_ok.mp hw)
  rw [List.nil_append] at hq
  subst hq
  exact encode_eq_ok.mpr (hrun le_rfl)

/-- A text that was written has a length of thirty-two bits and stands in what was written. -/
theorem text_run_ok {v : Bytes} {c : Nat} {s t : Bytes} (h : (text v).run c s = (.ok (), t)) :
    v.length < 2 ^ 32 ∧ ∃ size, t = s ++ size ++ v := by
  unfold text at h
  split at h
  · next hlt =>
      obtain ⟨u, m, hu, ht⟩ := run_bind_ok h
      obtain ⟨p, rfl, rfl⟩ := emits_append _ _ _ hu
      obtain ⟨q, rfl, rfl⟩ := emits_append _ _ _ ht
      exact ⟨hlt, _, rfl⟩
  · cases h

/-- The encodings of one value under two limits are the same bytes. -/
theorem encode_unique {w : Writer} [h : Extends w] {limit limit' : Nat} {p q : Bytes}
    (hp : w.encode limit = .ok p) (hq : w.encode limit' = .ok q) : p = q := by
  obtain ⟨p', hp', -, hrun⟩ := h.run_eq (encode_eq_ok.mp hp)
  obtain ⟨q', hq', -, hrun'⟩ := h.run_eq (encode_eq_ok.mp hq)
  rw [List.nil_append] at hp' hq'
  have h₁ : w.run (max p.length q.length) [] = (.ok (), [] ++ p') := hrun (by simp [hp'])
  have h₂ : w.run (max p.length q.length) [] = (.ok (), [] ++ q') := hrun' (by simp [hq'])
  rw [h₁] at h₂
  cases h₂
  rw [hp', hq']

end Writer

namespace Wire

instance (v : Provenance) : Extends (encProvenance v) := by
  unfold encProvenance
  infer_instance

instance (v : Freshness) : Extends (encFreshness v) := by
  unfold encFreshness
  infer_instance

instance (v : IncarnationId) : Extends (encIncarnation v) := by
  unfold encIncarnation
  infer_instance

instance (v : FencingToken) : Extends (encFence v) := by
  unfold encFence
  infer_instance

instance (v : CoordinatorEpoch) : Extends (encEpoch v) := by
  unfold encEpoch
  infer_instance

instance (v : GenerationBinding) : Extends (encBinding v) := by
  unfold encBinding
  infer_instance

instance (v : DemandVector) : Extends (encDemand v) := by
  unfold encDemand
  infer_instance

instance (v : ScopeSpec) : Extends (encScopeSpec v) := by
  unfold encScopeSpec
  infer_instance

instance {α : Type} (e : α → Writer) [∀ a, Extends (e a)] (items : List α) :
    Extends (encList e items) := by
  unfold encList
  infer_instance

instance (v : CapacityVector) : Extends (encCapacity v) := by
  unfold encCapacity
  infer_instance

instance (v : SemanticVersion) : Extends (encVersion v) := by
  unfold encVersion
  infer_instance

instance (v : VersionRange) : Extends (encVersionRange v) := by
  unfold encVersionRange
  infer_instance

instance (labels : List Bytes) : Extends (encLabels labels) :=
  inferInstanceAs (Extends (encList _ _))

instance (items : List DeviceKind) : Extends (encDeviceKindList items) :=
  inferInstanceAs (Extends (encList _ _))

instance (v : HostRecord) : Extends (encHostRecord v) := by
  unfold encHostRecord
  infer_instance

instance (v : DeviceRecord) : Extends (encDeviceRecord v) := by
  unfold encDeviceRecord
  infer_instance

instance (v : LinkRecord) : Extends (encLink v) := by
  unfold encLink
  infer_instance

instance (v : TopologySnapshot) : Extends (encTopology v) := by
  unfold encTopology
  infer_instance

instance (v : FunctionDescriptor) : Extends (encFunction v) := by
  unfold encFunction
  infer_instance

instance (v : FunctionDescriptor) : Writer.Grows (encFunction v) := by
  unfold encFunction
  infer_instance

instance (v : CapabilityRecord) : Extends (encCapabilityRecord v) := by
  unfold encCapabilityRecord
  infer_instance

instance (v : CapabilityRecord) : Writer.Grows (encCapabilityRecord v) := by
  unfold encCapabilityRecord
  infer_instance

instance (v : CapabilityReport) : Extends (encCapabilityReport v) := by
  unfold encCapabilityReport
  infer_instance

instance (v : PolicyRule) : Extends (encPolicyRule v) := by
  unfold encPolicyRule
  infer_instance

instance (v : PolicySnapshot) : Extends (encPolicy v) := by
  unfold encPolicy
  infer_instance

instance (v : AuthorityGrant) : Extends (encAuthority v) := by
  unfold encAuthority
  infer_instance

instance (v : AuthorityGrant) : Writer.Grows (encAuthority v) := by
  unfold encAuthority
  infer_instance

instance (v : DeviceObservation) : Extends (encObservation v) := by
  unfold encObservation
  infer_instance

instance (v : DeviceObservation) : Writer.Grows (encObservation v) := by
  unfold encObservation
  infer_instance

instance (v : ObservationReport) : Extends (encObservationReport v) := by
  unfold encObservationReport
  infer_instance

instance (v : TransitionRecord) : Extends (encTransitionRecord v) := by
  unfold encTransitionRecord
  infer_instance

instance (v : EffectRecord) : Extends (encEffectRecord v) := by
  unfold encEffectRecord
  infer_instance

instance (v : AssignmentRecord) : Extends (encAssignment v) := by
  unfold encAssignment
  infer_instance

instance (v : AssignmentRecord) : Writer.Grows (encAssignment v) := by
  unfold encAssignment
  infer_instance

instance (v : EffectReport) : Extends (encEffectReport v) := by
  unfold encEffectReport
  infer_instance

end Wire

end OffloadFabric
