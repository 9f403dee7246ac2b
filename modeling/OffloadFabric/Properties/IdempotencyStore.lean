import OffloadFabric.Fabric.Idempotency

/-!
# The idempotency store over a run

From any log that a runtime has written, under whatever bounds, the store of answered requests is
bounded and its queue in step with its map (`src/fabric.cpp:1563-1626`).
-/

namespace OffloadFabric

open Lib FabricState

/-- The idempotency store of a runtime is sound: the queue holds each key of the map once and
nothing else, the map is within its bound, the eviction loop runs to its end for every answer that
may be recorded next, and every step goes on through such stores only. -/
structure BoundedStore (c : FabricConfig) (m : Impl) : Prop where
  nodup : m.state.idempotencyOrder.Nodup
  queued : ∀ id, id ∈ m.state.idempotencyOrder ↔ id ∈ m.state.idempotency
  bounded : m.state.idempotency.size ≤ c.bounds.maxIdempotencyEntries.toNat
  evicts : ∀ id entry, m.state.evictRecorded c.bounds id entry ≠ none
  course : ∀ st : Step, IdempotencyCourse c.bounds m.state (st.next c m).state
  written : m.log.Written

/-- **The idempotency store stays bounded and consistent** over every run from any journal and any
snapshot a runtime has written. -/
theorem boundedStore_runFrom (c : FabricConfig) {l : Log} (hl : l.Written) (steps : List Step) :
    BoundedStore c (runFrom c { log := l } steps) := by
  have hstart : ({ log := l } : Impl).Queued c := ⟨⟨.empty, Nat.zero_le _⟩, hl⟩
  have hend := queued_runFrom hstart steps
  refine ⟨hend.state.inStep.nodup, hend.state.inStep.mem, hend.state.bounded, fun id entry ↦ ?_,
    fun st ↦ (Step.idempotencyCourse hend st).1, hend.log⟩
  obtain ⟨order, entries, hevict, -⟩ := hend.state.evict id entry
  rw [hevict]
  exact Option.some_ne_none _

/-- The log behind the compaction of an empty state. -/
private def compactedEmpty : Log where
  snapshot := (Fabric.snapshotEnvelope {} {}).toOption

private theorem written_compactedEmpty : compactedEmpty.Written := by
  intro envelope henvelope
  unfold compactedEmpty at henvelope
  refine ⟨{}, {}, ?_⟩
  generalize Fabric.snapshotEnvelope {} {} = written at henvelope ⊢
  cases written with
  | error e => cases henvelope
  | ok bytes =>
    cases henvelope
    rfl

/-- The run of a small deployment behind the snapshot of an empty state. -/
theorem boundedStore_applied : BoundedStore {} (runFrom {} { log := compactedEmpty } Sample.applied) :=
  boundedStore_runFrom {} written_compactedEmpty Sample.applied

end OffloadFabric
