import OffloadFabric.Fabric.Replay
import OffloadFabric.Fabric.Steps
import OffloadFabric.Lib.Fifo

/-!
# The idempotency store

The map of answered requests and the queue of its keys (`src/fabric.cpp:1563-1626`), over every
change of a runtime, every replay (`src/fabric.cpp:1906-2001`) and every snapshot it has written
(`src/fabric.cpp:862-906`).
-/

namespace OffloadFabric

open Lib Lib.Fallible FabricState Wire

namespace FabricState

/-- The queue holds each key of the map once and nothing else, and the map is within its bound. -/
structure Queued (b : Bounds) (s : FabricState) : Prop where
  inStep : Fifo.InStep s.idempotencyOrder s.idempotency
  bounded : s.idempotency.size ≤ b.maxIdempotencyEntries.toNat

/-- The eviction loop of `record_idempotency`, refused where it would read an empty queue,
`src/fabric.cpp:1573-1583`. -/
def evictRecorded (b : Bounds) (s : FabricState) (id : RequestId) (entry : IdempotencyEntry) :
    Option (List RequestId × Std.ExtTreeMap RequestId IdempotencyEntry) :=
  Fifo.evict b.maxIdempotencyEntries.toNat
    (if id ∈ s.idempotency then s.idempotencyOrder else s.idempotencyOrder ++ [id])
    (s.idempotency.insert id entry)

/-- One change of the idempotency store: none, a recorded answer whose eviction loop runs to its
end, the loss of the store, or its recovery from a snapshot. -/
inductive IdempotencyStep (b : Bounds) (s t : FabricState) : Prop
  | kept (horder : t.idempotencyOrder = s.idempotencyOrder) (hmap : t.idempotency = s.idempotency)
  | recorded (id : RequestId) (entry : IdempotencyEntry) (hid : id ≠ .empty)
      (hevict : s.evictRecorded b id entry = some (t.idempotencyOrder, t.idempotency))
  | lost (horder : t.idempotencyOrder = []) (hmap : t.idempotency = ∅)
  | restored (u : FabricState) (ht : t = u.restored) (hbound : u.Readable b b.maxTextBytes.toNat)

variable {b : Bounds} {s t u : FabricState}

/-- The loop of the source is the checked one wherever that runs to its end. -/
theorem evictIdempotency_eq {limit : Nat} {order : List RequestId}
    {entries : Std.ExtTreeMap RequestId IdempotencyEntry}
    {r : List RequestId × Std.ExtTreeMap RequestId IdempotencyEntry}
    (h : Fifo.evict limit order entries = some r) : evictIdempotency limit order entries = r := by
  induction order generalizing entries with
  | nil =>
    rw [Fifo.evict] at h
    split at h
    · cases h
    · cases h
      rfl
  | cons oldest order ih =>
    rw [Fifo.evict] at h
    rw [evictIdempotency]
    split at h
    · next hover =>
      rw [if_pos hover]
      exact ih h
    · next hover =>
      rw [if_neg hover]
      cases h
      rfl

theorem recordIdempotency_of_evict {id : RequestId} {entry : IdempotencyEntry} (hid : id ≠ .empty)
    {r : List RequestId × Std.ExtTreeMap RequestId IdempotencyEntry}
    (h : s.evictRecorded b id entry = some r) :
    (s.recordIdempotency b id entry).idempotencyOrder = r.1 ∧
      (s.recordIdempotency b id entry).idempotency = r.2 := by
  unfold recordIdempotency
  rw [if_neg hid]
  simp only [evictIdempotency_eq h, and_self]

namespace Queued

/-- **A recorded answer leaves the store queued**, and its loop runs to its end. -/
theorem evict (h : s.Queued b) (id : RequestId) (entry : IdempotencyEntry) :
    ∃ order entries, s.evictRecorded b id entry = some (order, entries) ∧
      Fifo.InStep order entries ∧ entries.size ≤ b.maxIdempotencyEntries.toNat := by
  unfold evictRecorded
  by_cases hid : id ∈ s.idempotency
  · rw [if_pos hid]
    have hover := h.inStep.overwrite entry hid
    obtain ⟨kept, hevict, hstep, hsize, -⟩ := hover.evict b.maxIdempotencyEntries.toNat
    exact ⟨_, kept, hevict, hstep, hsize⟩
  · rw [if_neg hid]
    have hpush := h.inStep.push entry hid
    obtain ⟨kept, hevict, hstep, hsize, -⟩ := hpush.evict b.maxIdempotencyEntries.toNat
    exact ⟨_, kept, hevict, hstep, hsize⟩

theorem step (h : s.Queued b) (hstep : IdempotencyStep b s t) : t.Queued b := by
  cases hstep with
  | kept horder hmap => exact ⟨horder ▸ hmap ▸ h.inStep, hmap ▸ h.bounded⟩
  | recorded id entry hid hevict =>
    obtain ⟨order, entries, hrun, hinStep, hsize⟩ := h.evict id entry
    rw [hevict] at hrun
    cases hrun
    exact ⟨hinStep, hsize⟩
  | lost horder hmap =>
    refine ⟨?_, ?_⟩
    · rw [horder, hmap]
      exact .empty
    · rw [hmap]
      exact Nat.zero_le _
  | restored u ht hbound =>
    subst ht
    refine ⟨?_, ?_⟩
    · change Fifo.InStep (u.idempotency.toList.map Prod.fst) u.idempotency
      rw [Std.ExtTreeMap.map_fst_toList_eq_keys]
      exact .keys _
    · rw [← Std.ExtTreeMap.length_toList]
      exact hbound.idempotency.1

end Queued

/-- A change of a queued store. -/
def QueuedStep (b : Bounds) (s t : FabricState) : Prop := s.Queued b ∧ IdempotencyStep b s t

/-- Changes of the store that leave it queued throughout. -/
abbrev IdempotencyCourse (b : Bounds) : FabricState → FabricState → Prop :=
  Relation.ReflTransGen (QueuedStep b)

theorem Queued.course (h : s.Queued b) (hcourse : IdempotencyCourse b s t) : t.Queued b := by
  induction hcourse with
  | refl => exact h
  | tail _ hstep _ => exact hstep.1.step hstep.2

theorem Queued.kept (h : s.Queued b) (horder : t.idempotencyOrder = s.idempotencyOrder)
    (hmap : t.idempotency = s.idempotency) : IdempotencyCourse b s t :=
  .single ⟨h, .kept horder hmap⟩

theorem Queued.recorded (h : s.Queued b) (id : RequestId) (entry : IdempotencyEntry) :
    QueuedStep b s (s.recordIdempotency b id entry) := by
  refine ⟨h, ?_⟩
  by_cases hid : id = .empty
  · have hsame : s.recordIdempotency b id entry = s := if_pos hid
    exact .kept (by rw [hsame]) (by rw [hsame])
  · obtain ⟨order, entries, hevict, -⟩ := h.evict id entry
    obtain ⟨horder, hmap⟩ := recordIdempotency_of_evict hid hevict
    refine .recorded id entry hid ?_
    rw [hevict, horder, hmap]

theorem Queued.insertAssignment (h : s.Queued b) (r : AssignmentRecord) :
    QueuedStep b s (s.insertAssignment r) :=
  ⟨h, .kept (by rw [insertAssignment_eq]) (by rw [insertAssignment_eq])⟩

theorem Queued.storing (h : s.Queued b) (v : RecordedAssignment) (response : Bytes)
    (now : Micros) : IdempotencyCourse b s (s.storing b v response now) := by
  have hinsert := h.insertAssignment v.record
  exact .tail (.single hinsert) ((h.step hinsert.2).recorded _ _)

theorem Queued.rebuildIndexes (h : s.Queued b) : IdempotencyCourse b s s.rebuildIndexes :=
  h.kept (by rw [rebuildIndexes_eq]) (by rw [rebuildIndexes_eq])

end FabricState

/-! ## Replays -/

variable {b : Bounds} {s t : FabricState}

private theorem replayAssignment_follows (h : s.Queued b) (r : AssignmentRecord) (id : RequestId)
    (fingerprint : Digest) (atTime : Micros) :
    Follows (QueuedStep b) (replayAssignment b r id fingerprint atTime) s := by
  have hinsert := h.insertAssignment r
  refine (Follows.modify hinsert).bind fun _ u hu ↦ ?_
  rw [exec_modify] at hu
  cases hu
  split
  · exact .lift_bind fun response _ ↦ .modify ((h.step hinsert.2).recorded _ _)
  · exact .pure _

private theorem replayWithdrawal_follows (h : s.Queued b) (w : RecordedWithdrawal) :
    Follows (QueuedStep b) (replayWithdrawal b w) s := by
  have hwithdrawn : QueuedStep b s (s.withdrawn w.authority) := ⟨h, .kept rfl rfl⟩
  refine (Follows.modify hwithdrawn).bind fun _ u hu ↦ ?_
  rw [exec_modify] at hu
  cases hu
  split
  · split
    · exact .modify ((h.step hwithdrawn.2).recorded _ _)
    · exact .pure _
  · exact .pure _

/-- Every record is replayed by changes of the store. -/
theorem applyRecord_follows (h : s.Queued b) (type : RecordType) (payload : Bytes) :
    Follows (QueuedStep b) (applyRecord b type payload) s := by
  unfold applyRecord readPayload
  cases type with
  | epochStarted => exact .lift_bind fun _ _ ↦ .modify ⟨h, .kept rfl rfl⟩
  | functionRegistered => exact .lift_bind fun _ _ ↦ .modify ⟨h, .kept rfl rfl⟩
  | topologyIngested => exact .lift_bind fun _ _ ↦ .modify ⟨h, .kept rfl rfl⟩
  | capabilityIngested => exact .lift_bind fun _ _ ↦ .modify ⟨h, .kept rfl rfl⟩
  | policyIngested => exact .lift_bind fun _ _ ↦ .modify ⟨h, .kept rfl rfl⟩
  | observationsIngested => exact .lift_bind fun _ _ ↦ .modify ⟨h, .kept rfl rfl⟩
  | authorityGranted => exact .lift_bind fun _ _ ↦ .modify ⟨h, .kept rfl rfl⟩
  | authorityWithdrawn => exact .lift_bind fun w _ ↦ replayWithdrawal_follows h w
  | assignmentCreated => exact .lift_bind fun _ _ ↦ replayAssignment_follows h _ _ _ _
  | assignmentTransitioned => exact .lift_bind fun _ _ ↦ replayAssignment_follows h _ _ _ _
  | effectRecorded => exact .lift_bind fun _ _ ↦ replayAssignment_follows h _ _ _ _
  | reassignmentRecorded => exact .lift_bind fun _ _ ↦ .modify ⟨h, .kept rfl rfl⟩
  | requestRecorded => exact .lift_bind fun _ _ ↦ .modify (h.recorded _ _)
  | scopeReleased => exact .pure _
  | snapshotBase => exact .pure _
  | storeSealed => exact .pure _

theorem replay_follows (h : s.Queued b) (records : List (RecordType × Bytes)) :
    Follows (QueuedStep b) (replay b records) s := by
  induction records generalizing s with
  | nil => exact .pure _
  | cons record records ih =>
    have hfirst := applyRecord_follows h record.1 record.2
    refine hfirst.bind fun _ u hu ↦ ih ?_
    have hcourse : IdempotencyCourse b s ((applyRecord b record.1 record.2).exec s).2 := hfirst
    rw [hu] at hcourse
    exact h.course hcourse

/-- The snapshot in a log was written by a compaction, under whatever bounds. -/
def Log.Written (l : Log) : Prop :=
  ∀ envelope, l.snapshot = some envelope → ∃ b s, Fabric.snapshotEnvelope b s = .ok envelope

/-- **A recovery goes through queued stores only**, whatever the records of its log are. -/
theorem recover_course (h : s.Queued b) {l : Log} (hl : l.Written) :
    IdempotencyCourse b s ((Fabric.recover b l).exec s).2 := by
  change Follows (QueuedStep b) (Fabric.recover b l) s
  unfold Fabric.recover
  cases hsnapshot : l.snapshot with
  | none => exact replay_follows h l.records
  | some envelope =>
    obtain ⟨b', u, hu⟩ := hl envelope hsnapshot
    refine Follows.lift_bind fun base hopen ↦ ?_
    obtain ⟨hreadable, hbase⟩ := Fabric.openSnapshot_of_written hu hopen
    have hstep : QueuedStep b s base := ⟨h, .restored u hbase hreadable⟩
    refine Follows.bind (.of_step hstep) fun _ v hv ↦ ?_
    rw [exec_set] at hv
    cases hv
    exact replay_follows (h.step hstep.2) l.records

/-! ## Runs -/

theorem Log.Written.settled {l l' : Log} (h : l.Written) (hl : Settled b s l l') :
    l'.Written := by
  cases hl with
  | same hl =>
    intro envelope henvelope
    exact h envelope (hl.1.symm.trans henvelope)
  | compacted envelope hs hl =>
    intro envelope' henvelope'
    rw [hl.1] at henvelope'
    cases henvelope'
    exact ⟨b, s, hs⟩

theorem Log.Written.recorded {l l' : Log} {type : RecordType} {payload : Bytes} (h : l.Written)
    (hl : Recorded b s type payload l l') : l'.Written := by
  obtain ⟨base, hbase, hsnapshot, -⟩ := hl
  intro envelope henvelope
  exact h.settled hbase envelope (hsnapshot ▸ henvelope)

theorem Log.Written.commits {c : FabricConfig} {m : Impl} {l : Log} {type : RecordType}
    {payload : Bytes} (h : m.log.Written) (hl : Commits c m type payload l) : l.Written := by
  unfold Commits at hl
  split at hl
  · exact h.recorded hl
  · rwa [hl]

/-- A runtime whose store is queued and whose log a runtime has written. -/
structure Impl.Queued (c : FabricConfig) (m : Impl) : Prop where
  state : m.state.Queued c.bounds
  log : m.log.Written

variable {c : FabricConfig} {st : Step} {m₀ m m' : Impl}

theorem Change.idempotencyCourse (h : Change c st m₀ m m') (hm : m.Queued c) :
    IdempotencyCourse c.bounds m.state m'.state ∧ m'.log.Written := by
  obtain ⟨hs, hl⟩ := hm
  cases h with
  | settled h => exact ⟨.refl, hl.settled h⟩
  | delivered _ hd _ hc =>
    refine ⟨hs.kept ?_ ?_, hl.commits hc⟩
    · rw [Op.delivery_next hd]
    · rw [Op.delivery_next hd]
  | stored _ _ _ _ hc => exact ⟨hs.storing _ _ _, hl.commits hc⟩
  | refused _ _ _ _ _ hc => exact ⟨.single (hs.recorded _ _), hl.commits hc⟩
  | stamped => exact ⟨hs.kept rfl rfl, hl⟩
  | noted _ hc => exact ⟨.refl, hl.commits hc⟩
  | issued _ hi => exact ⟨by cases hi <;> exact hs.kept rfl rfl, hl⟩
  | flagged => exact ⟨.refl, hl⟩
  | accepted _ => exact ⟨.refl, hl⟩
  | closed _ => exact ⟨.refl, hl⟩
  | sealed _ hsnapshot _ =>
    exact ⟨.refl, fun envelope henvelope ↦ hl envelope (hsnapshot ▸ henvelope)⟩
  | crashed _ => exact ⟨.single ⟨hs, .lost rfl rfl⟩, hl⟩

theorem Change.queued (h : Change c st m₀ m m') (hm : m.Queued c) : m'.Queued c := by
  obtain ⟨hcourse, hl⟩ := h.idempotencyCourse hm
  exact ⟨hm.state.course hcourse, hl⟩

private theorem Suspends.idempotencyCourse {now : Micros} (hm : m.Queued c)
    (h : Relation.ReflTransGen (Suspends c now) m m') :
    IdempotencyCourse c.bounds m.state m'.state ∧ m'.log.Written := by
  induction h with
  | refl => exact ⟨.refl, hm.log⟩
  | tail _ hstep ih =>
    obtain ⟨hcourse, hl⟩ := ih
    have hs := hm.state.course hcourse
    cases hstep with
    | settled h => exact ⟨hcourse, hl.settled h⟩
    | stored _ _ _ _ _ hc => exact ⟨hcourse.tail (hs.insertAssignment _), hl.commits hc⟩

private theorem Restarted.idempotencyCourse {boot : BootId} (hm : m.Queued c)
    (h : Restarted c boot m m') :
    IdempotencyCourse c.bounds m.state m'.state ∧ m'.log.Written := by
  obtain ⟨l, s, counter, payload, l', hsame, hrecover, -, -, hrecorded, rfl⟩ := h.exists_recovery
  have hl : l.Written := fun envelope henvelope ↦ hm.log envelope (hsame.1.symm.trans henvelope)
  have hcourse := recover_course hm.state hl
  rw [hrecover] at hcourse
  have hs := hm.state.course hcourse
  have hrebuilt := hcourse.trans hs.rebuildIndexes
  exact ⟨hrebuilt.trans ((hm.state.course hrebuilt).kept rfl rfl), hl.recorded hrecorded⟩

theorem Start.idempotencyCourse {now : Micros} {boot : BootId} (hm : m.Queued c)
    (h : Start c now boot m m') :
    IdempotencyCourse c.bounds m.state m'.state ∧ m'.log.Written := by
  have hwritten {l : Log} (hsame : m.log.Same l) : l.Written :=
    fun envelope henvelope ↦ hm.log envelope (hsame.1.symm.trans henvelope)
  cases h with
  | refused hsame => exact ⟨.refl, hwritten hsame⟩
  | bare _ _ => exact ⟨hm.state.kept rfl rfl, hm.log⟩
  | unreadable _ _ hsame hr =>
    have hcourse := recover_course hm.state (hwritten hsame)
    rw [hr] at hcourse
    exact ⟨hcourse, hwritten hsame⟩
  | exhausted _ _ hsame hr =>
    have hcourse := recover_course hm.state (hwritten hsame)
    rw [hr] at hcourse
    exact ⟨hcourse.trans (hm.state.course hcourse).rebuildIndexes, hwritten hsame⟩
  | unrecorded _ _ hsame hr _ hl =>
    have hcourse := recover_course hm.state (hwritten hsame)
    rw [hr] at hcourse
    have hrebuilt := hcourse.trans (hm.state.course hcourse).rebuildIndexes
    exact ⟨hrebuilt.trans ((hm.state.course hrebuilt).kept rfl rfl),
      (hwritten hsame).settled hl⟩
  | suspending _ hr hs =>
    obtain ⟨hcourse, hl⟩ := hr.idempotencyCourse hm
    obtain ⟨hrest, hl'⟩ := Suspends.idempotencyCourse ⟨hm.state.course hcourse, hl⟩ hs
    exact ⟨hcourse.trans hrest, hl'⟩
  | launched _ hr hs _ =>
    obtain ⟨hcourse, hl⟩ := hr.idempotencyCourse hm
    obtain ⟨hrest, hl'⟩ := Suspends.idempotencyCourse ⟨hm.state.course hcourse, hl⟩ hs
    exact ⟨hcourse.trans hrest, hl'⟩

/-- **Every step goes through queued stores only.** -/
theorem Step.idempotencyCourse (hm : m.Queued c) (st : Step) :
    IdempotencyCourse c.bounds m.state (st.next c m).state ∧ (st.next c m).Queued c := by
  have hfacing : (m.facing st.faults).Queued c := ⟨hm.state, hm.log⟩
  by_cases hstart : ∃ boot, st.op = .start boot
  · obtain ⟨boot, hop⟩ := hstart
    obtain ⟨hcourse, hl⟩ := (st.start_next c m hop).idempotencyCourse hfacing
    exact ⟨hcourse, hfacing.state.course hcourse, hl⟩
  · have hcourse := st.course c m fun boot hop ↦ hstart ⟨boot, hop⟩
    generalize st.next c m = m' at hcourse
    induction hcourse with
    | refl => exact ⟨.refl, hfacing⟩
    | tail _ hstep ih =>
      obtain ⟨hfront, hqueued⟩ := ih
      obtain ⟨hrest, -⟩ := hstep.idempotencyCourse hqueued
      exact ⟨hfront.trans hrest, hstep.queued hqueued⟩

theorem queued_runFrom (hm : m.Queued c) (steps : List Step) : (runFrom c m steps).Queued c := by
  induction steps generalizing m with
  | nil => exact hm
  | cons st steps ih => exact ih (Step.idempotencyCourse hm st).2

end OffloadFabric
