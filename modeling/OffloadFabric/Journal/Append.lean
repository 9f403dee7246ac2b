import OffloadFabric.Journal.Reopen

/-!
# Appending to a store

What an append and a run of appends leave, and the bare stores a run begins at: a store `open`
has just created and one whose journal `compact` has just replaced.
-/

namespace OffloadFabric

open Lib Lib.Fallible

namespace JournalStore

open Journal

variable {s t : JournalStore} {type : RecordType} {payload : Bytes} {rs : List JournalRecord}

/-- The last sequence behind a run of records. -/
def lastOf (sequence : UInt64) (rs : List JournalRecord) : UInt64 :=
  rs.foldl (fun _ r ↦ r.sequence) sequence

/-- A store behind records it has written. -/
def advanced (s : JournalStore) (rs : List JournalRecord) : JournalStore :=
  { s.write (recordBytes rs) with
    lastSequence := lastOf s.lastSequence rs
    bytes := s.bytes + (recordBytes rs).length }

/-- What a store admits. -/
structure Admitted (s : JournalStore) (payload : Bytes) : Prop where
  opened : s.closed = false
  bounded : payload.length ≤ s.options.maxRecordBytes.toNat
  room : s.bytes + (recordHeaderSize + payload.length + recordTrailerSize) ≤
    s.options.maxJournalBytes.toNat * 2
  sequence : s.lastSequence.toNat + 1 < 2 ^ 64

theorem admitted_of_admission {u : Unit} (h : s.admission payload = .ok u) : Admitted s payload := by
  unfold admission at h
  simp only [require_bind_eq_ok, require_eq_ok] at h
  obtain ⟨hopened, hbounded, -, -, -, hroom, hsequence⟩ := h
  exact ⟨hopened, hbounded, hroom, hsequence⟩

theorem recordBytes_singleton (r : JournalRecord) : recordBytes [r] = r.bytes := by
  rw [recordBytes_cons, recordBytes_nil, List.append_nil]

/-- **What an append does**: nothing when it is refused, else a record at the end of the file, in
full and counted, or a part of it that is not. -/
theorem exec_append (fault : Option Nat) (s : JournalStore) (type : RecordType)
    (payload : Bytes) :
    (append fault type payload).exec s =
      match s.admission payload, fault with
      | .error e, _ => (.error e, s)
      | .ok _, none => (.ok (), s.advanced [s.nextRecord type payload])
      | .ok _, some k => (.error ⟨.storeUnavailable, "short write to store file"⟩,
          s.write ((s.nextRecord type payload).bytes.take k)) := by
  unfold append
  rw [exec_bind, exec_get]
  simp only [exec_bind, exec_liftExcept]
  cases s.admission payload with
  | error e => cases fault <;> rfl
  | ok u =>
    cases fault with
    | some k => rfl
    | none =>
      simp only [exec_set, advanced, lastOf, recordBytes_singleton, JournalRecord.length_bytes]
      rfl

theorem append_none_ok {u : Unit} (h : (append none type payload).exec s = (.ok u, t)) :
    Admitted s payload ∧ t = s.advanced [s.nextRecord type payload] := by
  rw [exec_append] at h
  cases hadmission : s.admission payload with
  | error e =>
    rw [hadmission] at h
    cases h
  | ok u =>
    rw [hadmission] at h
    cases h
    exact ⟨admitted_of_admission hadmission, rfl⟩

theorem sequence_nextRecord (h : Admitted s payload) :
    (s.nextRecord type payload).sequence.toNat = s.lastSequence.toNat + 1 := by
  have hlt := h.sequence
  simp only [nextRecord, UInt64.toNat_add]
  exact Nat.mod_eq_of_lt hlt

/-! ## Runs of appends -/

/-- Append records one after another; the first refusal ends the run. -/
def appendAll : List (RecordType × Bytes) → Fallible JournalStore Error Unit
  | [] => pure ()
  | (type, payload) :: items => do
    append none type payload
    appendAll items

/-- The records of a run of appends behind a sequence. -/
def numbered (sequence : UInt64) : List (RecordType × Bytes) → List JournalRecord
  | [] => []
  | (type, payload) :: items =>
    ⟨type, sequence + 1, payload, 0, 0⟩ :: numbered (sequence + 1) items

/-- Records written behind a sequence, each within the bound and later than the one before. -/
structure Ascending (maxRecordBytes sequence : UInt64) (rs : List JournalRecord) : Prop where
  bounded : ∀ r ∈ rs, r.payload.length ≤ maxRecordBytes.toNat
  above : ∀ r ∈ rs, sequence < r.sequence
  sorted : (rs.map (·.sequence)).Pairwise (· < ·)

theorem advanced_nil (h : s.files.journal = some s.file) : s.advanced [] = s := by
  unfold advanced write
  rw [recordBytes_nil, List.append_nil, ← h]
  rfl

theorem write_write (s : JournalStore) (a b : Bytes) : (s.write a).write b = s.write (a ++ b) := by
  simp [write, file]

theorem advanced_write_nil (s : JournalStore) (rs : List JournalRecord) :
    (s.advanced rs).write [] = s.advanced rs := by
  simp [advanced, write, file]

theorem advanced_advanced (s : JournalStore) (rs rs' : List JournalRecord) :
    (s.advanced rs).advanced rs' = s.advanced (rs ++ rs') := by
  simp [advanced, write, file, lastOf, Nat.add_assoc]

@[simp] theorem file_advanced (s : JournalStore) (rs : List JournalRecord) :
    (s.advanced rs).file = s.file ++ recordBytes rs := rfl

theorem Ascending.cons {maxRecordBytes sequence : UInt64} {r : JournalRecord}
    (hbound : r.payload.length ≤ maxRecordBytes.toNat) (hr : sequence < r.sequence)
    (h : Ascending maxRecordBytes r.sequence rs) :
    Ascending maxRecordBytes sequence (r :: rs) where
  bounded x hx := by
    rcases List.mem_cons.mp hx with rfl | hx
    · exact hbound
    · exact h.bounded x hx
  above x hx := by
    rcases List.mem_cons.mp hx with rfl | hx
    · exact hr
    · exact hr.trans (h.above x hx)
  sorted := by
    rw [List.map_cons, List.pairwise_cons]
    refine ⟨fun q hq ↦ ?_, h.sorted⟩
    obtain ⟨x, hx, rfl⟩ := List.mem_map.mp hq
    exact h.above x hx

/-- A later record behind an ascending run. -/
theorem Ascending.snoc {maxRecordBytes sequence : UInt64} {r : JournalRecord}
    (h : Ascending maxRecordBytes sequence rs)
    (hbound : r.payload.length ≤ maxRecordBytes.toNat) (hr : lastOf sequence rs < r.sequence) :
    Ascending maxRecordBytes sequence (rs ++ [r]) := by
  induction rs generalizing sequence with
  | nil => exact .cons hbound hr ⟨by simp, by simp, by simp⟩
  | cons x rs ih =>
    have hsorted := h.sorted
    rw [List.map_cons, List.pairwise_cons] at hsorted
    have hrest : Ascending maxRecordBytes x.sequence rs :=
      ⟨fun y hy ↦ h.bounded y (List.mem_cons_of_mem x hy),
        fun y hy ↦ hsorted.1 _ (List.mem_map_of_mem hy), hsorted.2⟩
    exact .cons (h.bounded x (by simp)) (h.above x (by simp)) (ih hrest hr)

theorem Ascending.sublist {maxRecordBytes sequence : UInt64} {rs' : List JournalRecord}
    (h : Ascending maxRecordBytes sequence rs) (hsub : List.Sublist rs' rs) :
    Ascending maxRecordBytes sequence rs' where
  bounded x hx := h.bounded x (hsub.mem hx)
  above x hx := h.above x (hsub.mem hx)
  sorted := h.sorted.sublist (hsub.map _)

/-- **A run of successful appends** leaves its records behind the file, numbered one after
another. -/
theorem appendAll_ok {items : List (RecordType × Bytes)} {u : Unit}
    (hfile : s.files.journal = some s.file) (h : (appendAll items).exec s = (.ok u, t)) :
    t = s.advanced (numbered s.lastSequence items) ∧
      Ascending s.options.maxRecordBytes s.lastSequence (numbered s.lastSequence items) := by
  induction items generalizing s with
  | nil =>
    cases h
    exact ⟨(advanced_nil hfile).symm, ⟨by simp [numbered], by simp [numbered], by simp [numbered]⟩⟩
  | cons item items ih =>
    obtain ⟨type, payload⟩ := item
    obtain ⟨_, s₁, happend, hlater⟩ := exec_bind_ok h
    obtain ⟨hadmitted, rfl⟩ := append_none_ok happend
    obtain ⟨rfl, hascending⟩ := ih rfl hlater
    have hsequence := @sequence_nextRecord s type payload hadmitted
    refine ⟨advanced_advanced _ _ _, .cons hadmitted.bounded ?_ hascending⟩
    rw [UInt64.lt_iff_toNat_lt]
    exact hsequence ▸ Nat.lt_succ_self _

/-- A scan accepts an ascending run whose lengths fit. -/
theorem Ascending.allReadable {maxRecordBytes sequence : UInt64} {outcome : ScanOutcome}
    (h : Ascending maxRecordBytes sequence rs) (hfits : ∀ r ∈ rs, r.Fits)
    (houtcome : ∀ r ∈ rs, outcome.Precedes r.sequence) :
    AllReadable maxRecordBytes outcome rs := by
  induction rs generalizing outcome sequence with
  | nil => trivial
  | cons r rs ih =>
    refine ⟨⟨hfits r (by simp), h.bounded r (by simp), houtcome r (by simp)⟩, ?_⟩
    have hsorted := h.sorted
    rw [List.map_cons, List.pairwise_cons] at hsorted
    refine ih (h.sublist (List.sublist_cons_self r rs))
      (fun x hx ↦ hfits x (List.mem_cons_of_mem r hx)) fun x hx ↦ .inr ?_
    exact hsorted.1 _ (List.mem_map_of_mem hx)

end JournalStore

namespace Journal

variable {outcome : ScanOutcome} {rs : List JournalRecord}

@[simp] theorem lastSequence_acceptAll :
    (acceptAll outcome rs).lastSequence = JournalStore.lastOf outcome.lastSequence rs := by
  induction rs generalizing outcome with
  | nil => rfl
  | cons r rs ih =>
    have hrest := @ih (outcome.accept r)
    simp only [acceptAll, JournalStore.lastOf, List.foldl_cons] at hrest ⊢
    exact hrest

end Journal

namespace JournalStore

open Journal

variable {s t : JournalStore} {options : StoreOpenOptions} {now : UInt64} {generated : StoreId}
  {o o' : Opening}

/-! ## Where a run begins -/

/-- A store whose journal is its bare header. -/
structure Bare (s : JournalStore) : Prop extends Sound s where
  opened : s.closed = false
  journal : s.files.journal = some s.header
  bytes : s.bytes = headerSize
  covers : s.snapshotCovered ≤ s.lastSequence

/-- The identity of a header that could be built has its length. -/
theorem length_of_buildHeader {storeId : StoreId} {createdAt : UInt64} {formatVersion : UInt32}
    (h : buildHeader storeId createdAt formatVersion ≠ []) : storeId.value.length = 32 := by
  unfold buildHeader at h
  split at h
  · exact absurd rfl h
  · next hlen => exact not_not.mp hlen

/-- A store is bare when `open` has created it. -/
theorem bare_of_create (hempty : o.files.journal.getD [] = [])
    (h : (openStore options now generated).exec o = (.ok s, o')) : Bare s := by
  unfold openStore at h
  obtain ⟨husable, h⟩ := exec_check_bind_ok h
  simp only [exec_bind, exec_modify, exec_get] at h
  unfold demand at h
  split at h
  · rw [if_pos hempty] at h
    obtain ⟨hheader, h⟩ := exec_check_bind_ok h
    cases h
    refine ⟨⟨husable, length_of_buildHeader hheader, ?_⟩, rfl, rfl, rfl, le_rfl⟩
    intro hset
    exact (if_pos hset).symm
  · cases h

/-- A store is bare when `compact` has replaced its journal. -/
theorem bare_of_install {payload : Bytes} {covered : UInt64} {generation : Gen} {u : Unit}
    (hs : Sound s) (h : (install payload covered generation).exec s = (.ok u, t)) : Bare t := by
  unfold install at h
  rw [exec_bind, exec_get] at h
  obtain ⟨hopened, h⟩ := exec_check_bind_ok h
  obtain ⟨-, h⟩ := exec_check_bind_ok h
  obtain ⟨-, h⟩ := exec_check_bind_ok h
  rw [exec_bind, exec_modify] at h
  dsimp only at h
  obtain ⟨-, h⟩ := exec_check_bind_ok h
  cases h
  exact ⟨⟨hs.usable, hs.identity, hs.expected⟩, hopened, rfl, rfl, le_rfl⟩

/-- A store stays sound while it appends. -/
theorem Sound.advanced (h : s.Sound) (rs : List JournalRecord) : (s.advanced rs).Sound :=
  ⟨h.usable, h.identity, h.expected⟩

theorem Bare.length_file (hs : Bare s) : s.file.length = headerSize := by
  rw [file, hs.journal]
  exact hs.length_header

theorem Bare.header_advanced (hs : Bare s) (rs : List JournalRecord) :
    (s.advanced rs).header = s.file := by
  rw [file, hs.journal]
  rfl

/-- A new store under the default options. -/
def newStore (storeId : StoreId) : JournalStore where
  files := { journal := some (buildHeader storeId 0 1) }
  options := {}
  storeId := storeId
  createdAt := 0

/-- Sixteen bytes in hex are a store identifier. -/
theorem canonical_hex : ascii "0123456789abcdef0123456789abcdef" = [] ∨
    isValidToken (ascii "0123456789abcdef0123456789abcdef") = true := .inr (by decide)

theorem bare_newStore {storeId : StoreId} (h : storeId.value.length = 32) :
    Bare (newStore storeId) := by
  have husable : ({} : StoreOpenOptions).Usable := by decide
  exact ⟨⟨husable, h, fun hset ↦ absurd rfl hset⟩, rfl, rfl, rfl, le_rfl⟩

end JournalStore

end OffloadFabric
