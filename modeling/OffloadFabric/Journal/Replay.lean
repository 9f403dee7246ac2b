import OffloadFabric.Journal.Store

/-!
# Replaying a journal

`JournalStore::replay` (`src/journal.cpp:669-716`), a second reader of the records. It repeats
neither the length bound nor the sequence check of `scan_records`, and adds up a record's size in
32 bits.
-/

namespace OffloadFabric

open Lib Lib.Fallible

/-- How a replay ends early: with an error, or by a span past the bytes it is taken from, which
C++ leaves undefined. -/
inductive ReplayStop where
  | error (e : Error)
  | undefined
  deriving DecidableEq

/-- The visitor's state, and the bytes of the records gone over, which nothing reads. -/
structure Replaying (σ : Type) where
  visited : σ
  gone : List Bytes := []

/-- `RecordVisitor`, `include/nof/journal.hpp:71-72`. -/
abbrev RecordVisitor (σ : Type) := RecordType → UInt64 → Bytes → Fallible σ Error Unit

namespace Journal

variable {σ : Type}

/-- Show the visitor a record. -/
def visit (visitor : RecordVisitor σ) (type : RecordType) (sequence : UInt64) (payload : Bytes) :
    Fallible (Replaying σ) ReplayStop Unit := do
  let replaying ← get
  let (result, visited) := (visitor type sequence payload).exec replaying.visited
  set { replaying with visited }
  match result with
  | .ok _ => pure ()
  | .error e => throw (.error e)

/-- Go on behind a record. -/
def goOver (data : Bytes) : Fallible (Replaying σ) ReplayStop Unit :=
  modify fun replaying ↦ { replaying with gone := replaying.gone ++ [data] }

/-- `total` in `replay`, `src/journal.cpp:689`: three 32-bit numbers are added in 32 bits. -/
def replayTotal (rest : Bytes) : Nat := framing.total rest % 2 ^ 32

/-- The visit of a turn, `src/journal.cpp:703-711`. -/
def visitRecord (covered : UInt64) (visitor : RecordVisitor σ) (type : RecordType)
    (rest : Bytes) : Fallible (Replaying σ) ReplayStop Unit :=
  let sequence : UInt64 := .ofNat (field 8 8 rest)
  let payloadLength := framing.declared rest
  if type ≠ .snapshotBase ∧ covered < sequence then
    if rest.length < recordHeaderSize + payloadLength then throw .undefined
    else visit visitor type sequence ((rest.drop recordHeaderSize).take payloadLength)
  else pure ()

/-- One turn of the loop of `replay`, `src/journal.cpp:683-712`: the bytes it goes over, or nothing
where the replay ends. -/
def replayRecord (covered : UInt64) (visitor : RecordVisitor σ) (rest : Bytes) :
    Fallible (Replaying σ) ReplayStop (Option Nat) :=
  let total := replayTotal rest
  if rest.length < recordHeaderSize + recordTrailerSize then pure none
  else if rest.length < total then pure none
  else match RecordType.ofCode? (.ofNat (field 2 4 rest)) with
    | none => throw (.error ⟨.storeCorrupt, "record carries an unknown type"⟩)
    | some type =>
      if total < recordTrailerSize then throw .undefined
      else if field 4 (total - recordTrailerSize) rest ≠
          (crc32c (rest.take (total - recordTrailerSize))).toNat then
        throw (.error ⟨.storeCorrupt, "record integrity check failed during replay"⟩)
      else do
        visitRecord covered visitor type rest
        goOver (rest.take total)
        pure (some total)

/-- The loop of `replay`, `src/journal.cpp:682-714`, with a bound on its turns. -/
def replayFrom (covered : UInt64) (visitor : RecordVisitor σ) :
    Nat → Bytes → Fallible (Replaying σ) ReplayStop Unit
  | 0, _ => pure ()
  | turns + 1, rest => do
    match ← replayRecord covered visitor rest with
    | none => pure ()
    | some total => replayFrom covered visitor turns (rest.drop total)

end Journal

namespace JournalStore

open Journal

variable {σ : Type}

/-- `JournalStore::replay`, `src/journal.cpp:669-716`; every turn of its loop goes over four bytes
or more. -/
def replay (s : JournalStore) (visitor : RecordVisitor σ) :
    Fallible (Replaying σ) ReplayStop Unit := do
  check (s.closed = false) (.error ⟨.storeClosed, "store is closed"⟩)
  let data ← liftExcept ((readFile s.file (readLimit s.options)).mapError ReplayStop.error)
  check (headerSize ≤ data.length) (.error ⟨.storeTruncated, "store header is truncated"⟩)
  replayFrom s.snapshotCovered visitor data.length (data.drop headerSize)

end JournalStore

namespace Journal

variable {σ : Type} {covered : UInt64} {visitor : RecordVisitor σ} {r : JournalRecord}

/-- A record a replay shows its visitor, `src/journal.cpp:703`. -/
def Shown (covered : UInt64) (r : JournalRecord) : Prop :=
  r.type ≠ .snapshotBase ∧ covered < r.sequence

instance (covered : UInt64) (r : JournalRecord) : Decidable (Shown covered r) :=
  inferInstanceAs (Decidable (_ ∧ _))

/-- What going over one record does. -/
def goThrough (shown : JournalRecord → Prop) [DecidablePred shown] (visitor : RecordVisitor σ)
    (r : JournalRecord) : Fallible (Replaying σ) ReplayStop Unit := do
  if shown r then visit visitor r.type r.sequence r.payload
  goOver r.bytes

/-- What going over a run of records does. -/
def goThroughAll (shown : JournalRecord → Prop) [DecidablePred shown] (visitor : RecordVisitor σ) :
    List JournalRecord → Fallible (Replaying σ) ReplayStop Unit
  | [] => pure ()
  | r :: rs => do
    goThrough shown visitor r
    goThroughAll shown visitor rs

/-- The size of a record does not wrap in 32 bits. -/
def Sized (r : JournalRecord) : Prop := r.size < 2 ^ 32

instance (r : JournalRecord) : Decidable (Sized r) := inferInstanceAs (Decidable (_ < _))

theorem Sized.fits (h : Sized r) : r.Fits := by
  simp only [Sized, JournalRecord.size] at h
  simp only [JournalRecord.Fits]
  omega

/-- A replay stops silently in front of these bytes. -/
def Stops (rest : Bytes) : Prop :=
  rest.length < recordHeaderSize + recordTrailerSize ∨ rest.length < replayTotal rest

theorem replayRecord_stops {rest : Bytes} (h : Stops rest) :
    replayRecord covered visitor rest = pure none := by
  rw [replayRecord]
  rcases h with h | h
  · exact if_pos h
  · simp only [if_pos h, ite_self]

theorem replayFrom_stops {rest : Bytes} (h : Stops rest) (turns : Nat) :
    replayFrom covered visitor turns rest = pure () := by
  cases turns with
  | zero => rfl
  | succ turns => rw [replayFrom, replayRecord_stops h, pure_bind]

/-- A record whose size does not wrap is gone through as it was written. -/
theorem replayRecord_bytes (h : Sized r) (tail : Bytes) :
    replayRecord covered visitor (r.bytes ++ tail) = (do
      goThrough (Shown covered) visitor r
      pure (some r.size)) := by
  have hlen : (r.bytes ++ tail).length = r.size + tail.length := by simp
  have hge : 24 ≤ r.size := by
    simp only [JournalRecord.size, recordHeaderSize, recordTrailerSize]
    omega
  have htotal : replayTotal (r.bytes ++ tail) = r.size := by
    rw [replayTotal, h.fits.total, Nat.mod_eq_of_lt h]
  have hsequence : (.ofNat (field 8 8 (r.bytes ++ tail)) : UInt64) = r.sequence := by
    rw [JournalRecord.sequence_bytes, UInt64.ofNat_toNat]
  have hpayload : ((r.bytes ++ tail).drop recordHeaderSize).take r.payload.length = r.payload := by
    simp only [JournalRecord.bytes, Framing.sealed, List.append_assoc]
    rw [← JournalRecord.length_header r, List.drop_left, List.take_left]
  have hbytes : (r.bytes ++ tail).take r.size = r.bytes := by
    rw [← JournalRecord.length_bytes, List.take_left]
  have hroom : ¬ (r.bytes ++ tail).length < recordHeaderSize + r.payload.length := by
    rw [hlen, JournalRecord.size]
    omega
  have hvisit : visitRecord covered visitor r.type (r.bytes ++ tail) =
      if Shown covered r then visit visitor r.type r.sequence r.payload else pure () := by
    simp only [visitRecord, hsequence, h.fits.declared, hpayload, if_neg hroom]
    rfl
  rw [replayRecord]
  simp only [htotal, type_of_bytes, hbytes, hvisit, checksum_of_bytes h.fits, ne_eq,
    not_true_eq_false, if_false]
  rw [if_neg (by rw [hlen]; change ¬ _ < 24; omega), if_neg (by omega),
    if_neg (by change ¬ _ < 4; omega)]
  simp only [goThrough]
  split <;> simp

/-- **A run of records is gone through, and the replay goes on behind it.** -/
theorem replayFrom_records {rs : List JournalRecord} (h : ∀ r ∈ rs, Sized r) (turns : Nat)
    (tail : Bytes) :
    replayFrom covered visitor (turns + rs.length) (recordBytes rs ++ tail) = (do
      goThroughAll (Shown covered) visitor rs
      replayFrom covered visitor turns tail) := by
  induction rs with
  | nil => simp [goThroughAll, recordBytes]
  | cons r rs ih =>
    have hr := h r (by simp)
    have hrs := ih fun x hx ↦ h x (List.mem_cons_of_mem r hx)
    have hdrop (rest : Bytes) : (r.bytes ++ rest).drop r.size = rest := by
      rw [← JournalRecord.length_bytes, List.drop_left]
    rw [recordBytes] at hrs
    rw [List.length_cons, ← Nat.add_assoc, recordBytes, List.flatMap_cons, List.append_assoc,
      replayFrom, replayRecord_bytes hr]
    simp only [bind_assoc, pure_bind, hdrop, hrs, goThroughAll]

theorem length_le_recordBytes (rs : List JournalRecord) : rs.length ≤ (recordBytes rs).length := by
  induction rs with
  | nil => exact Nat.le_refl 0
  | cons r rs ih =>
    have hpos := r.size_pos
    simp only [recordBytes, List.flatMap_cons, List.length_append, List.length_cons,
      JournalRecord.length_bytes] at *
    omega

/-- A replay over whole records and a tail in front of which it stops. -/
theorem replayFrom_stopping {rs : List JournalRecord} (h : ∀ r ∈ rs, Sized r) {turns : Nat}
    {tail : Bytes} (hturns : rs.length ≤ turns) (hstops : Stops tail) :
    replayFrom covered visitor turns (recordBytes rs ++ tail) =
      goThroughAll (Shown covered) visitor rs := by
  obtain ⟨more, rfl⟩ := Nat.exists_eq_add_of_le' hturns
  rw [replayFrom_records h, replayFrom_stops hstops]
  exact bind_pure _

theorem goThroughAll_congr {shown shown' : JournalRecord → Prop} [DecidablePred shown]
    [DecidablePred shown'] {rs : List JournalRecord} (h : ∀ r ∈ rs, shown r ↔ shown' r) :
    goThroughAll shown visitor rs = goThroughAll shown' visitor rs := by
  induction rs with
  | nil => rfl
  | cons r rs ih =>
    have hr := h r (by simp)
    have hrs := ih fun x hx ↦ h x (List.mem_cons_of_mem r hx)
    simp only [goThroughAll, goThrough, hr, hrs]

/-! ## The records gone over -/

/-- A visitor that takes every record. -/
def accepting : RecordVisitor Unit := fun _ _ _ ↦ pure ()

theorem exec_goThroughAll_accepting (shown : JournalRecord → Prop) [DecidablePred shown]
    (rs : List JournalRecord) (gone : List Bytes) :
    (goThroughAll shown accepting rs).exec ⟨(), gone⟩ =
      (.ok (), ⟨(), gone ++ rs.map JournalRecord.bytes⟩) := by
  induction rs generalizing gone with
  | nil => simp [goThroughAll]
  | cons r rs ih =>
    have hone : (goThrough shown accepting r).exec ⟨(), gone⟩ =
        (.ok (), ⟨(), gone ++ [r.bytes]⟩) := by
      rw [goThrough]
      split <;> rfl
    rw [goThroughAll, exec_bind, hone]
    simp only [ih]
    simp

theorem gone_visitRecord {type : RecordType} {rest : Bytes} {replaying ended : Replaying σ}
    {u : Unit}
    (h : (visitRecord covered visitor type rest).exec replaying = (.ok u, ended)) :
    ended.gone = replaying.gone := by
  simp only [visitRecord] at h
  split at h
  · split at h
    · cases h
    · simp only [visit] at h
      obtain ⟨_, _, hget, h⟩ := exec_bind_ok h
      cases hget
      obtain ⟨_, _, hset, h⟩ := exec_bind_ok h
      cases hset
      split at h <;> cases h
      rfl
  · cases h
    rfl

/-- A turn that goes on goes over the bytes it says. -/
theorem gone_replayRecord {rest : Bytes} {replaying ended : Replaying σ} {total : Option Nat}
    (h : (replayRecord covered visitor rest).exec replaying = (.ok total, ended)) :
    total = none ∧ Stops rest ∧ ended = replaying ∨ total = some (replayTotal rest) ∧
      ended.gone = replaying.gone ++ [rest.take (replayTotal rest)] := by
  simp only [replayRecord] at h
  split at h
  · next hshort =>
    cases h
    exact .inl ⟨rfl, .inl hshort, rfl⟩
  split at h
  · next hshort =>
    cases h
    exact .inl ⟨rfl, .inr hshort, rfl⟩
  split at h
  · cases h
  split at h
  · cases h
  split at h
  · cases h
  · right
    obtain ⟨_, visited, hvisit, h⟩ := exec_bind_ok h
    obtain ⟨_, _, hgone, h⟩ := exec_bind_ok h
    cases hgone
    cases h
    exact ⟨rfl, by rw [← gone_visitRecord hvisit]⟩

/-- A replay that ends without an error has gone over more and more records, the next one among
them unless it stops. -/
theorem gone_replayFrom {turns : Nat} {rest : Bytes} {replaying ended : Replaying σ} {u : Unit}
    (h : (replayFrom covered visitor turns rest).exec replaying = (.ok u, ended)) :
    ∃ more, ended.gone = replaying.gone ++ more ∧
      (turns ≠ 0 → ¬ Stops rest → ∃ later, more = rest.take (replayTotal rest) :: later) := by
  induction turns generalizing rest replaying with
  | zero =>
    cases h
    exact ⟨[], (List.append_nil _).symm, fun h ↦ absurd rfl h⟩
  | succ turns ih =>
    rw [replayFrom] at h
    obtain ⟨total, next, hturn, hlater⟩ := exec_bind_ok h
    rcases gone_replayRecord hturn with ⟨rfl, hstops, rfl⟩ | ⟨rfl, hgone⟩
    · cases hlater
      exact ⟨[], (List.append_nil _).symm, fun _ hgo ↦ absurd hstops hgo⟩
    · obtain ⟨later, hlater, -⟩ := ih hlater
      refine ⟨rest.take (replayTotal rest) :: later, ?_, fun _ _ ↦ ⟨later, rfl⟩⟩
      rw [hlater, hgone, List.append_assoc, List.singleton_append]

end Journal

end OffloadFabric
