import OffloadFabric.Journal.Front
import OffloadFabric.Lib.Simulation

/-!
# Sessions of a store

A store in its process, over the durable calls of the runtime: appends, compactions and openings
(`src/journal.cpp:349-823`), each of which the file system may stop. Beside a call of the store
stands the call of the log that the runtime is modelled over.
-/

namespace OffloadFabric

open Lib Lib.Fallible Journal

/-- The options of a runtime's store, `src/fabric.cpp:2618-2626`. -/
def storeOptions (b : Bounds) (recovery : RecoveryPolicy) (expected : StoreId) :
    StoreOpenOptions where
  createIfMissing := true
  recovery := recovery
  maxJournalBytes := b.maxJournalBytes
  maxSnapshotBytes := b.maxSnapshotBytes
  maxRecordBytes := b.maxRecordBytes
  expectedStoreId := expected
  formatVersion := 1

/-- `JournalStore::generation`, `src/journal.cpp:859-862`. -/
def JournalStore.generation (s : JournalStore) : Gen :=
  let generation := (s.snapshot.map (·.generation)).getD 0
  if generation = 0 then 1 else generation

/-- An open store in its process: a compaction closes the journal before it replaces it, and a
process whose opening is refused is left without a store. -/
structure StoreSession where
  store : JournalStore
  writable : Bool := true
  present : Bool := true
  deriving DecidableEq

/-- What `Fabric::start` reads of an open store, `src/fabric.cpp:2639-2692`: the snapshot and the
records that a replay shows. -/
abbrev Recovery := Option Bytes × Except ReplayStop (List (RecordType × Bytes))

/-- Where the file system stops a compaction. -/
inductive CompactionStop where
  /-- Inside the snapshot, which stands beside the installed one. -/
  | snapshot (k : Nat)
  /-- Inside the header of the new journal, behind the installation of the snapshot. -/
  | journal (k : Nat)
  /-- Inside the base record of the new journal. -/
  | base (k : Nat)
  deriving DecidableEq

/-- What is left of the base record is less than all of it. -/
def CompactionStop.Inside : CompactionStop → Prop
  | .base k => k < 48
  | .snapshot _ | .journal _ => True

instance : (stop : CompactionStop) → Decidable stop.Inside
  | .base k => inferInstanceAs (Decidable (k < 48))
  | .snapshot _ | .journal _ => inferInstanceAs (Decidable True)

/-- A durable call and where the file system stops it, if it does. -/
inductive StoreCall where
  | append (short : Option Nat) (type : RecordType) (payload : Bytes)
  | compact (stop : Option CompactionStop) (payload : Bytes)
  | reopen (now : UInt64) (generated : StoreId)

namespace StoreSession

/-- Run a call of the store. -/
def onStore {α : Type} (x : Fallible JournalStore Error α) : Fallible StoreSession Error α := do
  let session ← get
  match x.exec session.store with
  | (.ok a, store) =>
      set { session with store }
      return a
  | (.error e, store) =>
      set { session with store }
      throw e

/-- The checks of `compact`, `src/journal.cpp:728-737`. -/
def checkCompaction (payload : Bytes) (covered : UInt64) : Fallible JournalStore Error Unit := do
  let s ← get
  check (s.closed = false) ⟨.storeClosed, "store is closed"⟩
  check (payload.length ≤ s.options.maxSnapshotBytes.toNat)
    ⟨.oversizedInput, "snapshot exceeds the configured bound"⟩
  check (s.snapshotCovered ≤ covered)
    ⟨.sequenceRegression, "snapshot would move backwards"⟩

/-- The payload of the base record, `src/journal.cpp:817-821`. -/
def basePayload (covered : UInt64) (generation : Gen) : Bytes :=
  le 8 covered.toNat ++ le 8 generation.toNat ++ le 8 0

/-- `compact_locked` on the store, `src/fabric.cpp:1470-1471`, and `JournalStore::compact`,
`src/journal.cpp:726-823`, up to where it is stopped. -/
def compact (stop : Option CompactionStop) (payload : Bytes) :
    Fallible StoreSession Error Unit := do
  let session ← get
  let s := session.store
  let snapshot : StoreSnapshot := ⟨payload, s.lastSequence, s.generation + 1⟩
  let file := snapshotBytes s.options.formatVersion snapshot
  match stop with
  | some (.snapshot k) =>
      onStore do
        checkCompaction payload snapshot.covered
        modify fun s ↦ { s with files := { s.files with snapshotTmp := some (file.take k) } }
      throw Log.unavailable
  | some (.journal k) =>
      onStore do
        checkCompaction payload snapshot.covered
        modify fun s ↦ { s with
          files := { s.files with
            snapshot := some file, snapshotTmp := none, journalTmp := some (s.header.take k) } }
      modify fun session ↦ { session with writable := false }
      throw Log.unavailable
  | _ =>
      onStore (JournalStore.install payload snapshot.covered snapshot.generation)
      modify fun session ↦ { session with writable := true }
      let short := match stop with
        | some (.base k) => some k
        | _ => none
      onStore (JournalStore.append short .snapshotBase
        (basePayload snapshot.covered snapshot.generation))

/-- A visitor that collects what it is shown. -/
def collect : RecordVisitor (List (RecordType × Bytes)) := fun type _ payload ↦
  modify fun shown ↦ shown ++ [(type, payload)]

/-- What a store shows of itself when it has been opened. -/
def recovery (s : JournalStore) : Recovery :=
  (s.snapshot.map (·.payload), match (s.replay collect).exec ⟨[], []⟩ with
    | (.ok _, replaying) => .ok replaying.visited
    | (.error stop, _) => .error stop)

/-- A new process opens the files of the store. -/
def reopen (now : UInt64) (generated : StoreId) : Fallible StoreSession Error Recovery := do
  let session ← get
  let s := session.store
  match (JournalStore.openStore s.options now generated).exec ⟨s.files, {}⟩ with
  | (.ok store, _) =>
      set { store : StoreSession }
      return recovery store
  | (.error e, o) =>
      set { session with store := { s with files := o.files }, present := false }
      throw e

end StoreSession

namespace StoreCall

/-- The call of the store; an opening answers with what it recovers. -/
def onStore : StoreCall → Fallible StoreSession Error (Option Recovery)
  | .append short type payload => do
      let _ ← StoreSession.onStore (JournalStore.append short type payload)
      return none
  | .compact stop payload => do
      let _ ← StoreSession.compact stop payload
      return none
  | .reopen now generated => some <$> StoreSession.reopen now generated

/-- What a call of the log meets. -/
def fault : StoreCall → Fault
  | .append none _ _ | .compact none _ | .reopen _ _ => .none
  | .append (some _) _ _ | .compact (some (.snapshot _)) _ => .lost
  | .compact (some (.journal _)) _ => .installed
  | .compact (some (.base _)) _ => .emptied

/-- What a restart reads of the log. -/
def recoverLog : Fallible Log Error Recovery := do
  let log ← get
  return (log.snapshot, .ok log.records)

/-- The call of the log. -/
def onLog (b : Bounds) (call : StoreCall) : Fallible Log Error (Option Recovery) := do
  modify fun log ↦ { log with faults := [call.fault] }
  match call with
  | .append _ type payload => do
      let _ ← Log.append b type payload
      return none
  | .compact _ payload => do
      let _ ← Log.compact b payload
      return none
  | .reopen _ _ => do
      Log.reopen b
      some <$> recoverLog

/-- Where the log speaks for the store: no append behind part of a record or a closed journal, no
opening while such a part stands in a journal that may not be truncated, and none of a bare
journal behind a snapshot. A write that is stopped leaves less than its record, and the base of a
snapshot is written by compactions only. -/
def Regular (session : StoreSession) : StoreCall → Prop
  | .append short type payload =>
      session.present = true ∧ session.writable = true ∧ type ≠ .snapshotBase ∧
        session.store.lastSequence.toNat + 1 < 2 ^ 64 ∧
        session.store.file.length = session.store.bytes ∧
        ∀ k ∈ short, k < recordHeaderSize + payload.length + recordTrailerSize
  | .compact stop _ =>
      session.present = true ∧ session.store.lastSequence.toNat + 1 < 2 ^ 64 ∧
        ∀ stopped ∈ stop, stopped.Inside
  | .reopen _ _ =>
      (session.store.options.recovery = .refuse →
          session.store.file.length = session.store.bytes) ∧
        (session.store.bytes = headerSize →
          JournalStore.coveredBy session.store.files.snapshot = 0)

instance (session : StoreSession) : (call : StoreCall) → Decidable (call.Regular session)
  | .append _ _ _ => inferInstanceAs (Decidable (_ ∧ _ ∧ _ ∧ _ ∧ _ ∧ _))
  | .compact _ _ => inferInstanceAs (Decidable (_ ∧ _ ∧ _))
  | .reopen _ _ => inferInstanceAs (Decidable (_ ∧ _))

end StoreCall

end OffloadFabric
