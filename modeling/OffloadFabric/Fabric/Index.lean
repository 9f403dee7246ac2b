import OffloadFabric.Fabric.State

/-!
# Claims, indexes and bookkeeping

The claim indexes that follow the assignments (`src/fabric.cpp:1628-1727`), their rebuilding at
a start (`src/fabric.cpp:922-989`), the idempotency store (`src/fabric.cpp:1563-1596`) and the
reassignment stamps (`src/fabric.cpp:2149-2175`).
-/

namespace OffloadFabric

open Lib

namespace FabricState

/-- `acquire_claims`, `src/fabric.cpp:1628-1660`. -/
def acquireClaims (s : FabricState) (r : AssignmentRecord) : FabricState :=
  { s with
    scopeSpecs := if r.scopeId ≠ .empty then s.scopeSpecs.insert r.scopeId r.scope
      else s.scopeSpecs
    exclusiveByClass := if r.holdsExclusive ∧ r.exclusiveKey = .perClass then
        s.exclusiveByClass.insert r.exclusivityKey r.id
      else s.exclusiveByClass
    exclusiveByScope := if r.holdsExclusive ∧ r.exclusiveKey = .perScope then
        s.exclusiveByScope.insert r.scopeId r.id
      else s.exclusiveByScope
    committed := if r.state.holdsAuthority then
        -- a component that overflows keeps the zero its output started with
        s.committed.insert r.device (.ofFn fun c ↦
          (checkedAdd ((s.committedDemandFor r.device).get c) (r.demand.get c)).getD 0)
      else s.committed }

/-- `release_claims`, `src/fabric.cpp:1662-1700`. -/
def releaseClaims (s : FabricState) (r : AssignmentRecord) : FabricState :=
  { s with
    exclusiveByClass := if s.exclusiveByClass[r.exclusivityKey]? = some r.id then
        s.exclusiveByClass.erase r.exclusivityKey
      else s.exclusiveByClass
    exclusiveByScope := if s.exclusiveByScope[r.scopeId]? = some r.id then
        s.exclusiveByScope.erase r.scopeId
      else s.exclusiveByScope
    committed := s.committed.insert r.device (.ofFn fun c ↦
      (checkedSub ((s.committedDemandFor r.device).get c) (r.demand.get c)).getD 0) }

/-- The number of assignments that use a grant, `src/fabric.cpp:1708-1716`. -/
def grantUses (t : Table AssignmentRecord) (id : AuthorityId) : UInt64 :=
  .ofNat (t.values.countP fun r ↦ r.state.holdsAuthority && r.authority ≠ .empty && r.authority = id)

/-- `refresh_authority_usage`, `src/fabric.cpp:1704-1717`. -/
def refreshAuthorityUsage (s : FabricState) : FabricState :=
  { s with
    authority := s.authority.mapValues (fun g ↦ { g with used := grantUses s.assignments g.id })
      fun _ ↦ rfl }

/-- The release of an entry about to be overwritten, `src/fabric.cpp:1720-1723`. -/
def releaseExisting (s : FabricState) (id : AssignmentId) : FabricState :=
  match s.assignments.find? id with
  | some old => s.releaseClaims old
  | none => s

/-- `insert_assignment`, `src/fabric.cpp:1719-1727`. -/
def insertAssignment (s : FabricState) (r : AssignmentRecord) : FabricState :=
  let released := s.releaseExisting r.id
  { released with assignments := released.assignments.insert r }
    |>.acquireClaims r |>.refreshAuthorityUsage

/-- The counters a live record raises, `src/fabric.cpp:935-948`. -/
def raiseCounters (s : FabricState) (r : AssignmentRecord) : FabricState :=
  { s with
    nextAssignmentOrdinal := max s.nextAssignmentOrdinal (parseOrdinal r.id.value (ascii "as-"))
    nextLease := max s.nextLease r.lease
    nextAttempt := max s.nextAttempt r.attempt
    nextFenceSequence := if r.fence.epoch = s.epoch.counter then
        max s.nextFenceSequence r.fence.sequence
      else s.nextFenceSequence }

/-- The assignment loop of `rebuild_indexes`, `src/fabric.cpp:927-976`. -/
def rebuildRecord (s : FabricState) (r : AssignmentRecord) : FabricState :=
  if r.state.isLive then (s.raiseCounters r).acquireClaims r else s

/-- `rebuild_indexes`, `src/fabric.cpp:922-989`. -/
def rebuildIndexes (s : FabricState) : FabricState :=
  (s.assignments.values.foldl rebuildRecord
    { s with
      exclusiveByClass := ∅
      exclusiveByScope := ∅
      committed := ∅
      scopeSpecs := ∅ }).refreshAuthorityUsage

/-- The eviction loop of `record_idempotency`, `src/fabric.cpp:1578-1583`. -/
def evictIdempotency (limit : Nat) :
    List RequestId → Std.ExtTreeMap RequestId IdempotencyEntry →
      List RequestId × Std.ExtTreeMap RequestId IdempotencyEntry
  | [], entries => ([], entries)
  | oldest :: order, entries =>
      if limit < entries.size then evictIdempotency limit order (entries.erase oldest)
      else (oldest :: order, entries)

/-- `record_idempotency`, `src/fabric.cpp:1563-1584`. -/
def recordIdempotency (s : FabricState) (b : Bounds) (id : RequestId)
    (entry : IdempotencyEntry) : FabricState :=
  if id = .empty then s
  else
    let order := if id ∈ s.idempotency then s.idempotencyOrder else s.idempotencyOrder ++ [id]
    let evicted := evictIdempotency b.maxIdempotencyEntries.toNat order
      (s.idempotency.insert id entry)
    { s with idempotencyOrder := evicted.1, idempotency := evicted.2 }

/-- `find_idempotency`, `src/fabric.cpp:1586-1595`. -/
def findIdempotency (s : FabricState) (id : RequestId) : Option IdempotencyEntry :=
  if id = .empty then none else s.idempotency[id]?

/-- `reassignment_count`, `src/fabric.cpp:2149-2165`. -/
def reassignmentCount (s : FabricState) (k : ExclusivityKey) (now : Micros) : Nat :=
  ((s.reassignments[k]?).getD []).countP fun stamp ↦ stamp ≤ now

/-- The stamps that `note_reassignment` keeps, `src/fabric.cpp:2167-2176`. -/
def pushReassignment (s : FabricState) (b : Bounds) (k : ExclusivityKey) (now : Micros) :
    FabricState :=
  let stamps := (s.reassignments[k]?).getD [] ++ [now]
  { s with
    reassignments := s.reassignments.insert k
      (stamps.drop (stamps.length - (b.maxReassignmentsPerScope * 8).toNat)) }

end FabricState

end OffloadFabric
