import OffloadFabric.Fabric.Run
import OffloadFabric.Fabric.PayloadRoundTrip

/-!
# Snapshots of the state

`encode_state` and `decode_state`, `src/fabric.cpp:404-911`: what a snapshot gives back of the
state that it was taken of.
-/

namespace OffloadFabric

open Lib Lib.Coder Wire

/-- The state without the indexes that are derived from the rest of it. -/
def FabricState.primary (s : FabricState) : FabricState :=
  { s with exclusiveByClass := ∅, exclusiveByScope := ∅, committed := ∅ }

/-- The eviction order is the order of the identifiers. -/
def FabricState.EvictsInOrder (s : FabricState) : Prop :=
  s.idempotencyOrder = s.idempotency.toList.map Prod.fst

private theorem restored_primary (s : FabricState) :
    s.restored.primary = s.primary ↔ s.EvictsInOrder := by
  constructor
  · intro h
    exact (congrArg FabricState.idempotencyOrder h).symm
  · intro h
    unfold FabricState.restored FabricState.primary
    rw [← show s.idempotencyOrder = _ from h]

private theorem restored_idempotencyOrder (s : FabricState) :
    s.restored.idempotencyOrder = s.idempotency.toList.map Prod.fst := rfl

/-- A reader of the state that succeeded has read everything. -/
private theorem decState_run {b : Bounds} {n : Nat} {payload rest : Bytes} {t : FabricState}
    (h : (decState b).run n payload = (.ok t, rest)) : rest = [] := by
  obtain ⟨s, u, -, h₁⟩ := run_bind_ok h
  obtain ⟨atEnd, u', hend, h₂⟩ := run_bind_ok h₁
  obtain ⟨data, v, hdata, hpure⟩ := run_bind_ok hend
  cases hdata
  cases hpure
  split at h₂
  · next hempty =>
      cases h₂
      exact List.isEmpty_iff.mp hempty
  · cases h₂

/-- What is decoded from the encoding of a state within its bounds. -/
private theorem decState_encoded {b : Bounds} {n limit : Nat} {s t : FabricState}
    {payload : Bytes} (henc : (encState s).encode limit = .ok payload)
    (hsize : payload.length < 2 ^ 32) :
    (decState b).run n payload = (.ok t, []) ↔ s.Readable b n ∧ t = s.restored := by
  rw [← decState_eq_ok hsize (Writer.encode_length henc)]
  unfold Reader.decode
  constructor
  · intro h
    rw [h]
  · intro h
    cases hrun : (decState b).run n payload with
    | mk r rest =>
        rw [hrun] at h
        obtain rfl : r = .ok t := h
        rw [decState_run hrun]

/-- **Snapshot round trip.** Decoding the encoded state of a run, when the state is within the
bounds of the decoder, reads all of it and gives every primary field back exactly when the
state would evict requests in the order of their identifiers. -/
theorem snapshot_round_trip_iff (c : FabricConfig) (steps : List Step) {b : Bounds}
    {n limit : Nat} {payload : Bytes}
    (henc : (encState (run c steps).state).encode limit = .ok payload)
    (hsize : payload.length < 2 ^ 32) (hbounds : (run c steps).state.Readable b n) :
    (∃ t, (decState b).run n payload = (.ok t, []) ∧
        t.primary = (run c steps).state.primary) ↔ (run c steps).state.EvictsInOrder := by
  simp only [decState_encoded henc hsize, hbounds, true_and]
  rw [← restored_primary]
  constructor
  · rintro ⟨_, rfl, h⟩
    exact h
  · intro h
    exact ⟨_, rfl, h⟩

/-- A snapshot that is read back, as a check that runs. -/
private def snapshotReads (s : FabricState) : Bool :=
  match (encState s).encode 4096 with
  | .ok payload => payload.length < 2 ^ 32 && ((decState {}).run 4096 payload).1.toBool
  | .error _ => false

private theorem of_snapshotReads {s : FabricState} (h : snapshotReads s = true) :
    ∃ payload, (encState s).encode 4096 = .ok payload ∧ payload.length < 2 ^ 32 ∧
      s.Readable {} 4096 := by
  unfold snapshotReads at h
  cases henc : (encState s).encode 4096 with
  | error e =>
      rw [henc] at h
      cases h
  | ok payload =>
      rw [henc] at h
      simp only [Bool.and_eq_true, decide_eq_true_eq] at h
      refine ⟨payload, rfl, h.1, ?_⟩
      cases hrun : (decState {}).run 4096 payload with
      | mk r rest =>
          rw [hrun] at h
          cases r with
          | error e => cases h.2
          | ok t =>
              rw [decState_run hrun] at hrun
              exact ((decState_encoded henc h.1).mp hrun).1

/-- The snapshot of a run without requests gives every primary field back. -/
theorem snapshot_round_trip_ready :
    ∃ payload t, (encState (run {} Sample.ready).state).encode 4096 = .ok payload ∧
      (decState {}).run 4096 payload = (.ok t, []) ∧
      t.primary = (run {} Sample.ready).state.primary := by
  obtain ⟨payload, henc, hsize, hbounds⟩ :=
    of_snapshotReads (s := (run {} Sample.ready).state) (by decide +kernel)
  have horder : (run {} Sample.ready).state.EvictsInOrder := by
    unfold FabricState.EvictsInOrder
    decide +kernel
  obtain ⟨t, hread, hsame⟩ := (snapshot_round_trip_iff {} Sample.ready henc hsize hbounds).mpr horder
  exact ⟨payload, t, henc, hread, hsame⟩

namespace Sample

/-- Two placements that nothing can serve, the second with the smaller identifier. -/
def refused : List Step :=
  [step (.start boot),
    step (.apply { request with requestId := ⟨ascii "b", .inr (by decide)⟩ } {}),
    step (.apply { request with requestId := ⟨ascii "a", .inr (by decide)⟩ } {})]

end Sample

/-- The order of eviction is not in the snapshot: the younger of two requests is read back as
the one to evict first. -/
theorem eviction_order_lost :
    ∃ payload, (encState (run {} Sample.refused).state).encode 4096 = .ok payload ∧
      (run {} Sample.refused).state.Readable {} 4096 ∧
      ∀ t, (decState {}).run 4096 payload = (.ok t, []) →
        t.idempotencyOrder ≠ (run {} Sample.refused).state.idempotencyOrder := by
  obtain ⟨payload, henc, hsize, hbounds⟩ :=
    of_snapshotReads (s := (run {} Sample.refused).state) (by decide +kernel)
  refine ⟨payload, henc, hbounds, fun t ht ↦ ?_⟩
  obtain ⟨-, rfl⟩ := (decState_encoded henc hsize).mp ht
  rw [restored_idempotencyOrder]
  decide +kernel

end OffloadFabric
