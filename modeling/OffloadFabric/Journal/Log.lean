import OffloadFabric.Base.Bounds
import OffloadFabric.Base.Bytes
import OffloadFabric.Lib.Codec

/-!
# The durable log

What the runtime relies on a `JournalStore` for (`include/nof/journal.hpp`): a snapshot payload
and the records acknowledged since, in order. The refusals that depend on sizes are those of
`src/journal.cpp:610-667,726-823`; what the file system does is an input, one fault for each
durable call.
-/

namespace OffloadFabric

open Lib Lib.Fallible

/-- `RecordType`, `include/nof/journal.hpp:28-45`. -/
inductive RecordType where
  | epochStarted | functionRegistered | topologyIngested | capabilityIngested | policyIngested
  | observationsIngested | authorityGranted | authorityWithdrawn | assignmentCreated
  | assignmentTransitioned | effectRecorded | reassignmentRecorded | requestRecorded
  | scopeReleased | snapshotBase | storeSealed
  deriving DecidableEq, Repr

namespace RecordType

/-- The durable number of a record type, `include/nof/journal.hpp:29-44`. -/
def code : RecordType → UInt16
  | .epochStarted => 1
  | .functionRegistered => 2
  | .topologyIngested => 3
  | .capabilityIngested => 4
  | .policyIngested => 5
  | .observationsIngested => 6
  | .authorityGranted => 7
  | .authorityWithdrawn => 8
  | .assignmentCreated => 9
  | .assignmentTransitioned => 10
  | .effectRecorded => 11
  | .reassignmentRecorded => 12
  | .requestRecorded => 13
  | .scopeReleased => 14
  | .snapshotBase => 15
  | .storeSealed => 16

/-- `parse_record_type`, `src/journal.cpp:227-280`. -/
def ofCode? : UInt16 → Option RecordType
  | 1 => some .epochStarted
  | 2 => some .functionRegistered
  | 3 => some .topologyIngested
  | 4 => some .capabilityIngested
  | 5 => some .policyIngested
  | 6 => some .observationsIngested
  | 7 => some .authorityGranted
  | 8 => some .authorityWithdrawn
  | 9 => some .assignmentCreated
  | 10 => some .assignmentTransitioned
  | 11 => some .effectRecorded
  | 12 => some .reassignmentRecorded
  | 13 => some .requestRecorded
  | 14 => some .scopeReleased
  | 15 => some .snapshotBase
  | 16 => some .storeSealed
  | _ => none

instance : Coded RecordType UInt16 where
  code := code
  ofCode? := ofCode?
  ofCode?_code c := by cases c <;> rfl

end RecordType

/-- Where the file system stops a durable call. -/
inductive Fault where
  /-- It does not. -/
  | none
  /-- Nothing reaches the disk. -/
  | lost
  /-- A compaction ends after its snapshot rename. -/
  | installed
  /-- A compaction ends after its journal replacement. -/
  | emptied
  deriving DecidableEq, Repr

/-- A durable log and the faults its next durable calls meet. -/
structure Log where
  snapshot : Option Bytes := .none
  records : List (RecordType × Bytes) := []
  bytes : Nat := 64
  writable : Bool := true
  faults : List Fault := []

namespace Log

/-- The fault of the next durable call. -/
def takeFault : Fallible Log Error Fault := do
  let log ← get
  match log.faults with
  | [] => pure .none
  | fault :: faults =>
      set { log with faults }
      pure fault

/-- The error of a durable call the file system stopped, `src/detail/file_io.cpp:126-133`. -/
def unavailable : Error := ⟨.storeUnavailable, "short write to store file"⟩

/-- The size checks of `append`, `src/journal.cpp:618-641`, for a file of the given size. -/
def admission (b : Bounds) (bytes payload : Nat) : Result Unit := do
  require (payload + 24 < 2 ^ 64) ⟨.arithmeticOverflow, "record size overflow"⟩
  require (b.maxJournalBytes.toNat * 2 < 2 ^ 64) ⟨.arithmeticOverflow, "journal cap overflow"⟩
  require (bytes + (payload + 24) < 2 ^ 64) ⟨.arithmeticOverflow, "journal size overflow"⟩
  require (bytes + (payload + 24) ≤ b.maxJournalBytes.toNat * 2)
    ⟨.compactionRequired, "journal reached its hard size cap and must be compacted"⟩

/-- `JournalStore::append`, `src/journal.cpp:610-667`. -/
def append (b : Bounds) (type : RecordType) (payload : Bytes) : Fallible Log Error Unit := do
  let log ← get
  check (payload.length ≤ b.maxRecordBytes.toNat)
    ⟨.oversizedInput, "record payload exceeds the configured bound"⟩
  liftExcept <| admission b log.bytes payload.length
  let fault ← takeFault
  if log.writable ∧ fault = .none then
    modify fun log ↦ { log with
      records := log.records ++ [(type, payload)]
      bytes := log.bytes + (payload.length + 24) }
  else throw unavailable

/-- `JournalStore::compact`, `src/journal.cpp:726-823`. -/
def compact (b : Bounds) (payload : Bytes) : Fallible Log Error Unit := do
  check (payload.length ≤ b.maxSnapshotBytes.toNat)
    ⟨.oversizedInput, "snapshot exceeds the configured bound"⟩
  let fault ← takeFault
  match fault with
  | .lost => throw unavailable
  | .installed =>
      -- the records are covered, and the closed journal takes no more of them
      modify fun log ↦ { log with snapshot := some payload, records := [], writable := false }
      throw unavailable
  | .emptied =>
      modify fun log ↦ { log with
        snapshot := some payload, records := [], bytes := 64, writable := true }
      throw unavailable
  | .none =>
      modify fun log ↦ { log with
        snapshot := some payload, records := [], bytes := 64, writable := true }
      -- the base record is skipped by every replay
      liftExcept <| admission b 64 24
      modify fun log ↦ { log with bytes := 112 }

/-- `JournalStore::open`, `src/journal.cpp:361-579`, on files this store wrote: the sizes it
reads must be within its options. -/
def reopen (b : Bounds) : Fallible Log Error Unit := do
  let log ← get
  check (256 ≤ b.maxRecordBytes ∧ b.maxRecordBytes ≤ b.maxJournalBytes ∧
      b.maxRecordBytes ≤ b.maxSnapshotBytes)
    ⟨.invalidConfiguration, "store bounds are not usable"⟩
  let fault ← takeFault
  check (fault = .none) unavailable
  check (log.bytes ≤ (b.maxJournalBytes * 2 + b.maxRecordBytes * 4).toNat)
    ⟨.oversizedInput, "store file exceeds the configured size bound"⟩
  check (∀ payload ∈ log.snapshot, payload.length + 36 ≤ b.maxSnapshotBytes.toNat)
    ⟨.oversizedInput, "store file exceeds the configured size bound"⟩
  check (∀ payload ∈ log.snapshot, payload.length < 2 ^ 32)
    ⟨.storeCorrupt, "snapshot size does not match its header"⟩
  modify fun log ↦ { log with writable := true }

/-! ## What the calls leave on disk -/

/-- Two logs that recover alike: the same snapshot and records. -/
def Same (l l' : Log) : Prop := l'.snapshot = l.snapshot ∧ l'.records = l.records

/-- A log whose compaction installed the given snapshot payload. -/
def Installed (payload : Bytes) (l : Log) : Prop := l.snapshot = some payload ∧ l.records = []

theorem Same.refl (l : Log) : Same l l := ⟨rfl, rfl⟩

theorem Same.trans {l m n : Log} (h₁ : Same l m) (h₂ : Same m n) : Same l n :=
  ⟨h₂.1.trans h₁.1, h₂.2.trans h₁.2⟩

theorem takeFault_same (l : Log) :
    ∃ fault, ∃ faults, takeFault.exec l = (.ok fault, { l with faults }) := by
  cases h : l.faults with
  | nil =>
      refine ⟨.none, [], ?_⟩
      unfold takeFault
      rw [exec_bind, exec_get]
      simp only [h, exec_pure, Prod.mk.injEq, true_and]
      cases l
      cases h
      rfl
  | cons fault faults =>
      refine ⟨fault, faults, ?_⟩
      unfold takeFault
      rw [exec_bind, exec_get]
      simp only [h, exec_bind, exec_set, exec_pure]

/-- An append adds its record when it succeeds and nothing when it fails. -/
theorem append_exec (b : Bounds) (type : RecordType) (payload : Bytes) (l : Log) :
    ((∃ e, (append b type payload).exec l = (.error e, ((append b type payload).exec l).2)) ∧
        Same l ((append b type payload).exec l).2) ∨
      ((append b type payload).exec l).1 = .ok () ∧
        ((append b type payload).exec l).2.snapshot = l.snapshot ∧
        ((append b type payload).exec l).2.records = l.records ++ [(type, payload)] := by
  unfold append
  rw [exec_bind, exec_get]
  simp only [exec_bind, exec_check]
  by_cases hsize : payload.length ≤ b.maxRecordBytes.toNat
  · simp only [hsize, if_true, exec_liftExcept]
    cases hadmitted : admission b l.bytes payload.length with
    | error e => exact .inl ⟨⟨e, rfl⟩, Same.refl l⟩
    | ok u =>
        obtain ⟨fault, faults, hfault⟩ := takeFault_same l
        simp only [hfault]
        split
        · exact .inr ⟨rfl, rfl, rfl⟩
        · exact .inl ⟨⟨unavailable, rfl⟩, rfl, rfl⟩
  · simp only [hsize, if_false]
    exact .inl ⟨⟨_, rfl⟩, Same.refl l⟩

/-- A compaction installs its snapshot, also where it fails after its rename, or leaves the log
as it was. -/
theorem compact_exec (b : Bounds) (payload : Bytes) (l : Log) :
    Same l ((compact b payload).exec l).2 ∨ Installed payload ((compact b payload).exec l).2 := by
  unfold compact
  simp only [exec_bind, exec_check]
  by_cases hsize : payload.length ≤ b.maxSnapshotBytes.toNat
  · simp only [hsize, if_true]
    obtain ⟨fault, faults, hfault⟩ := takeFault_same l
    simp only [hfault]
    cases fault with
    | lost => exact .inl ⟨rfl, rfl⟩
    | installed => exact .inr ⟨rfl, rfl⟩
    | emptied => exact .inr ⟨rfl, rfl⟩
    | none =>
        simp only [exec_bind, exec_modify, exec_liftExcept]
        cases admission b 64 24 with
        | error e => exact .inr ⟨rfl, rfl⟩
        | ok u => exact .inr ⟨rfl, rfl⟩
  · simp only [hsize, if_false]
    exact .inl (Same.refl l)

/-- Opening a log changes nothing that a recovery reads. -/
theorem reopen_same (b : Bounds) (l : Log) : Same l ((reopen b).exec l).2 := by
  refine Follows.rel (R := Same) ?_ Same.refl fun _ _ _ ↦ Same.trans
  unfold reopen
  refine .get_bind <| .check_bind fun _ ↦ .bind (.of_step ?_) fun fault t ht ↦ ?_
  · obtain ⟨fault, faults, hfault⟩ := takeFault_same l
    rw [hfault]
    exact ⟨rfl, rfl⟩
  · exact .check_bind fun _ ↦ .check_bind fun _ ↦ .check_bind fun _ ↦ .check_bind fun _ ↦
      .modify ⟨rfl, rfl⟩

end Log

end OffloadFabric
