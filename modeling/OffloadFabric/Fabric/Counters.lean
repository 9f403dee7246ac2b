import OffloadFabric.Fabric.Steps
import OffloadFabric.Fabric.Replay

/-!
# Epochs and counters

What moves the epoch and the counters of a state: the issue functions, a start, and nothing
else. Tokens are issued in increasing order, because a start takes an epoch above every epoch
a recovery has seen and records it before anything is issued in it.
-/

namespace OffloadFabric

open Lib Lib.Fallible Wire

namespace FabricState

/-- Two states with the same epoch and counters. -/
structure SameCounters (s t : FabricState) : Prop where
  epoch : t.epoch = s.epoch
  epochCounter : t.epochCounter = s.epochCounter
  nextAssignmentOrdinal : t.nextAssignmentOrdinal = s.nextAssignmentOrdinal
  nextLease : t.nextLease = s.nextLease
  nextAttempt : t.nextAttempt = s.nextAttempt
  nextFenceSequence : t.nextFenceSequence = s.nextFenceSequence

namespace SameCounters

theorem refl (s : FabricState) : SameCounters s s := ⟨rfl, rfl, rfl, rfl, rfl, rfl⟩

theorem trans {s t u : FabricState} (h₁ : SameCounters s t) (h₂ : SameCounters t u) :
    SameCounters s u where
  epoch := h₂.epoch.trans h₁.epoch
  epochCounter := h₂.epochCounter.trans h₁.epochCounter
  nextAssignmentOrdinal := h₂.nextAssignmentOrdinal.trans h₁.nextAssignmentOrdinal
  nextLease := h₂.nextLease.trans h₁.nextLease
  nextAttempt := h₂.nextAttempt.trans h₁.nextAttempt
  nextFenceSequence := h₂.nextFenceSequence.trans h₁.nextFenceSequence

end SameCounters

theorem sameCounters_insertAssignment (s : FabricState) (r : AssignmentRecord) :
    SameCounters s (s.insertAssignment r) := by
  rw [insertAssignment_eq]
  exact ⟨rfl, rfl, rfl, rfl, rfl, rfl⟩

theorem sameCounters_recordIdempotency (s : FabricState) (b : Bounds) (id : RequestId)
    (e : IdempotencyEntry) : SameCounters s (s.recordIdempotency b id e) := by
  rw [recordIdempotency_eq]
  exact ⟨rfl, rfl, rfl, rfl, rfl, rfl⟩

theorem sameCounters_storing (s : FabricState) (b : Bounds) (v : RecordedAssignment)
    (response : Bytes) (t : Micros) : SameCounters s (s.storing b v response t) :=
  (sameCounters_insertAssignment s v.record).trans (sameCounters_recordIdempotency _ _ _ _)

theorem sameCounters_pushReassignment (s : FabricState) (b : Bounds) (k : ExclusivityKey)
    (t : Micros) : SameCounters s (s.pushReassignment b k t) := ⟨rfl, rfl, rfl, rfl, rfl, rfl⟩

theorem sameCounters_applyRecoveryInvariants (s : FabricState) :
    SameCounters s { s.applyRecoveryInvariants with nextFenceSequence := s.nextFenceSequence } :=
  ⟨rfl, rfl, rfl, rfl, rfl, rfl⟩

theorem sameCounters_delivery {c : FabricConfig} {now : ClockReadings} {s : FabricState} {op : Op}
    {d : Delivery} (h : op.delivery c now s = .ok (some d)) : SameCounters s d.next := by
  rw [Op.delivery_next h]
  exact ⟨rfl, rfl, rfl, rfl, rfl, rfl⟩

theorem Issue.epoch {s t : FabricState} {i : Issued} (h : s.Issue i t) :
    t.epoch = s.epoch ∧ t.epochCounter = s.epochCounter := by
  cases h <;> exact ⟨rfl, rfl⟩

private theorem Issue.fence_epoch {s t : FabricState} {fence : FencingToken}
    (h : s.Issue (.fence fence) t) : fence.epoch = s.epoch.counter := by
  cases h
  rfl

/-- The token of a new assignment is of the current epoch. -/
theorem Issues.fence_epoch {s t : FabricState} {i : Identity} (h : s.Issues i t) :
    i.fence.epoch = s.epoch.counter := by
  obtain ⟨s₁, s₂, s₃, h₁, h₂, h₃, h₄⟩ := h
  rw [h₄.fence_epoch, h₃.epoch.1, h₂.epoch.1, h₁.epoch.1]

/-- The token of a re-authorized assignment is of the current epoch. -/
theorem Renews.fence_epoch {s t : FabricState} {lease : LeaseId} {attempt : AttemptId}
    {fence : FencingToken} (h : s.Renews lease attempt fence t) :
    fence.epoch = s.epoch.counter := by
  obtain ⟨s₁, s₂, h₁, h₂, h₃⟩ := h
  rw [h₃.fence_epoch, h₂.epoch.1, h₁.epoch.1]

end FabricState

open FabricState

/-- A change issues one value, or leaves the epoch and the counters. -/
theorem Change.counters {c : FabricConfig} {st : Step} {m₀ m m' : Impl}
    (h : Change c st m₀ m m') (hcrash : st.op ≠ .crash) :
    SameCounters m.state m'.state ∧ m'.issued = m.issued ∨
      ∃ i, m.state.Issue i m'.state ∧ m'.log = m.log ∧ m'.issued = m.issued ++ [i] := by
  cases h with
  | settled h => exact .inl ⟨.refl _, rfl⟩
  | delivered hm hd hp hl => exact .inl ⟨sameCounters_delivery hd, rfl⟩
  | stored hmiss hv hp hr hl => exact .inl ⟨sameCounters_storing _ _ _ _ _, rfl⟩
  | refused hmiss hid hk hr hp hl =>
      exact .inl ⟨sameCounters_recordIdempotency _ _ _ _, rfl⟩
  | stamped => exact .inl ⟨sameCounters_pushReassignment _ _ _ _, rfl⟩
  | noted hp hl => exact .inl ⟨.refl _, rfl⟩
  | issued hop hi => exact .inr ⟨_, hi, rfl, rfl⟩
  | flagged => exact .inl ⟨.refl _, rfl⟩
  | accepted hrun => exact .inl ⟨.refl _, rfl⟩
  | closed hop => exact .inl ⟨.refl _, rfl⟩
  | sealed hop hsnapshot hrecords => exact .inl ⟨.refl _, rfl⟩
  | crashed hop => exact absurd hop hcrash

/-- The log after a change: settled, or with one record more. -/
theorem Change.log {c : FabricConfig} {st : Step} {m₀ m m' : Impl} (h : Change c st m₀ m m') :
    Settled c.bounds m.state m.log m'.log ∨
      ∃ type payload, Recorded c.bounds m.state type payload m.log m'.log := by
  have hcommits : ∀ {type payload l}, Commits c m type payload l →
      Settled c.bounds m.state m.log l ∨
        ∃ type payload, Recorded c.bounds m.state type payload m.log l := by
    intro type payload l hl
    unfold Commits at hl
    split at hl
    · exact .inr ⟨type, payload, hl⟩
    · exact .inl (hl ▸ .same (Log.Same.refl _))
  cases h with
  | settled h => exact .inl h
  | delivered hm hd hp hl => exact hcommits hl
  | stored hmiss hv hp hr hl => exact hcommits hl
  | refused hmiss hid hk hr hp hl => exact hcommits hl
  | noted hp hl => exact hcommits hl
  | sealed hop hsnapshot hrecords =>
      exact .inr ⟨_, _, m.log, .same (Log.Same.refl _), hsnapshot, hrecords⟩
  | _ => exact .inl (.same (Log.Same.refl _))

/-! ## The epochs a log has seen -/

/-- A recovery never lowers the epoch counter. -/
theorem Effect.epochCounter_le {b : Bounds} {type : RecordType} {payload : Bytes}
    {f : FabricState → FabricState} (hf : Effect b payload type f) (s : FabricState) :
    s.epochCounter ≤ (f s).epochCounter := by
  cases hf with
  | epoch _ => exact le_max_left _ _
  | assignment _ _ => exact (sameCounters_storing _ _ _ _ _).epochCounter.ge
  | request _ => exact (sameCounters_recordIdempotency _ _ _ _).epochCounter.ge
  | withdrawal _ hf _ => rw [hf s]
  | evidence _ hf => rw [hf s]

/-- Every recovery of the log has seen the given epoch. -/
def Log.EpochFloor (b : Bounds) (l : Log) (n : UInt64) : Prop :=
  ∀ f, l.Recovers b f → ∀ s, n ≤ (f s).epochCounter

namespace Log.EpochFloor

variable {b : Bounds} {l l' : Log} {n : UInt64}

theorem mono {k : UInt64} (h : l.EpochFloor b n) (hle : k ≤ n) : l.EpochFloor b k :=
  fun f hf s ↦ hle.trans (h f hf s)

theorem same (h : l.EpochFloor b n) (hl : l.Same l') : l'.EpochFloor b n :=
  fun f hf ↦ h f (hf.same hl)

theorem settled {s : FabricState} (h : l.EpochFloor b n) (hs : n ≤ s.epochCounter)
    (hl : Settled b s l l') : l'.EpochFloor b n := by
  intro f hf x
  rcases hf.settled hl with hf | hf
  · exact h f hf x
  · rw [hf]
    exact hs

theorem recorded {s : FabricState} {type : RecordType} {payload : Bytes} (h : l.EpochFloor b n)
    (hs : n ≤ s.epochCounter) (hl : Recorded b s type payload l l') : l'.EpochFloor b n := by
  intro f hf x
  obtain ⟨f₀, g, hf₀, hg, hfg⟩ := hf.recorded hl
  rw [hfg]
  refine le_trans ?_ (hg.effect.epochCounter_le _)
  rcases hf₀ with hf₀ | hf₀
  · exact h f₀ hf₀ x
  · rw [hf₀]
    exact hs

/-- A recorded epoch has been seen by every later recovery. -/
theorem epoch {s : FabricState} {e : CoordinatorEpoch} {payload : Bytes} {limit : Nat}
    (hp : (encEpoch e).encode limit = .ok payload)
    (hl : Recorded b s .epochStarted payload l l') : l'.EpochFloor b e.counter := by
  intro f hf x
  obtain ⟨f₀, g, -, hg, hfg⟩ := hf.recorded hl
  rw [hfg]
  cases hg.effect with
  | epoch h =>
      obtain ⟨-, rfl⟩ := (Writer.decode_eq_ok (roundTrip_epoch e) hp).mp h
      exact le_max_right _ _
  | assignment hv _ => cases hv
  | evidence htype _ => simp at htype

end Log.EpochFloor

/-! ## Starts -/

theorem FabricState.rebuildIndexes_epoch (s : FabricState) :
    s.rebuildIndexes.epoch = s.epoch ∧ s.rebuildIndexes.epochCounter = s.epochCounter := by
  rw [rebuildIndexes_eq]
  exact ⟨rfl, rfl⟩

/-- A start takes an epoch above the one it recovers. -/
theorem FabricState.epochCounter_lt_of_nextEpoch {s : FabricState} {counter : UInt64}
    (h : s.nextEpoch = .ok counter) : s.epochCounter < counter := by
  unfold nextEpoch at h
  split at h
  · split at h
    · next hadd =>
        cases h
        have hsum := (checkedAdd_eq_some.mp hadd).2
        rw [UInt64.lt_iff_toNat_lt, hsum]
        simp
    · cases h
  · next hpos =>
      cases h
      have hzero : s.epochCounter = 0 := by
        rw [UInt64.lt_iff_toNat_lt] at hpos
        rw [← UInt64.toNat_inj]
        simpa using hpos
      rw [hzero]
      decide

end OffloadFabric
