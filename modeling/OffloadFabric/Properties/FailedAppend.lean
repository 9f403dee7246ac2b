import OffloadFabric.Journal.Front

/-!
# Failed appends

Runs of appends of which some fail after writing a part of their record, followed by opening the
store under `TruncateTornTail` (`src/journal.cpp:610-667,349-580`).
-/

namespace OffloadFabric

open Lib Lib.Fallible Journal JournalStore

/-- A call of `append`, and the bytes of its record after which the file system stops it. -/
structure Attempt where
  fault : Option Nat
  type : RecordType
  payload : Bytes

/-- A run of appends: the store, and the records whose appends succeeded and failed. -/
structure AppendRun where
  store : JournalStore
  acknowledged : List JournalRecord := []
  failed : List JournalRecord := []

namespace AppendRun

variable {s : JournalStore} {run : AppendRun} {a : Attempt} {as : List Attempt}

/-- One append of a run. -/
def attempt (run : AppendRun) (a : Attempt) : AppendRun :=
  let r := run.store.nextRecord a.type a.payload
  match (JournalStore.append a.fault a.type a.payload).exec run.store with
  | (.ok _, store) => { run with store, acknowledged := run.acknowledged ++ [r] }
  | (.error _, store) => { run with store, failed := run.failed ++ [r] }

/-- The appends of a run, one after another. -/
def attempts (run : AppendRun) (as : List Attempt) : AppendRun := as.foldl attempt run

/-- The store opened after a run shows the acknowledged records in order, and besides them at
most failed ones, no two under one sequence. -/
structure Survives (run : AppendRun) (u : JournalStore) (kept : List JournalRecord) : Prop where
  acknowledged : run.acknowledged.Sublist kept
  only : ∀ r ∈ kept, r ∈ run.acknowledged ∨ r ∈ run.failed
  distinct : (kept.map (·.sequence)).Nodup
  replay : ∀ {σ : Type} (visitor : RecordVisitor σ),
    u.replay visitor = goThroughAll NotBase visitor kept

/-- The condition on an append that writes something: no bytes of a failed append stand at the end
of the file, and the size of the record does not wrap, unless it fails before that shows. -/
def Meets (s : JournalStore) (a : Attempt) : Prop :=
  s.admission a.payload = .ok () → a.fault ≠ some 0 → s.file.length = s.bytes ∧
    (Sized (s.nextRecord a.type a.payload) ∨
      ∃ k, a.fault = some k ∧ k < max 24 ((s.nextRecord a.type a.payload).size % 2 ^ 32))

/-- Every append of a run meets the condition. -/
def AllMeet : AppendRun → List Attempt → Prop
  | _, [] => True
  | run, a :: as => Meets run.store a ∧ AllMeet (run.attempt a) as

/-- What stands in the file after a run: the acknowledged records, and behind them nothing or a
part of a failed one. -/
structure Standing (s : JournalStore) (run : AppendRun) (rest : Bytes) : Prop where
  store : run.store = (s.advanced run.acknowledged).write rest
  ascending : Ascending s.options.maxRecordBytes s.lastSequence run.acknowledged
  sized : ∀ r ∈ run.acknowledged, Sized r
  rest : rest = [] ∨ ∃ r ∈ run.failed, ∃ k, rest = r.bytes.take k ∧
    Ascending s.options.maxRecordBytes s.lastSequence (run.acknowledged ++ [r]) ∧
    (Sized r ∨ k < max 24 (r.size % 2 ^ 32))

variable {s : JournalStore} {run : AppendRun} {a : Attempt} {as : List Attempt} {rest : Bytes}

/-- Bytes of a failed append stand in the file exactly when it is longer than the store counts. -/
private theorem Standing.rest_eq_nil (hs : Bare s) (h : Standing s run rest)
    (hlen : run.store.file.length = run.store.bytes) : rest = [] := by
  rw [h.store] at hlen
  have hfile : ((s.advanced run.acknowledged).write rest).file =
      s.file ++ recordBytes run.acknowledged ++ rest := rfl
  have hbytes : ((s.advanced run.acknowledged).write rest).bytes =
      s.bytes + (recordBytes run.acknowledged).length := rfl
  rw [hfile, hbytes, List.length_append, List.length_append, hs.length_file, hs.bytes] at hlen
  exact List.eq_nil_of_length_eq_zero (by omega)

/-- More failed records change nothing of what stands. -/
private theorem Standing.fail (h : Standing s run rest) (r : JournalRecord) :
    Standing s { run with failed := run.failed ++ [r] } rest := by
  refine ⟨h.store, h.ascending, h.sized, ?_⟩
  rcases h.rest with hnil | ⟨r', hr', hpart⟩
  · exact .inl hnil
  · exact .inr ⟨r', List.mem_append_left _ hr', hpart⟩

/-- **One append that meets the condition** keeps what stands in the file well formed. -/
theorem Standing.attempt (hs : Bare s) (h : Standing s run rest) (hmeets : Meets run.store a) :
    ∃ rest', Standing s (run.attempt a) rest' := by
  obtain ⟨fault, type, payload⟩ := a
  unfold AppendRun.attempt
  rw [exec_append]
  cases hadmission : run.store.admission payload with
  | error e => exact ⟨rest, h.fail _⟩
  | ok u =>
    have hadmitted := admitted_of_admission hadmission
    have hbound : payload.length ≤ s.options.maxRecordBytes.toNat := by
      have := hadmitted.bounded
      rwa [h.store] at this
    have hsnoc : Ascending s.options.maxRecordBytes s.lastSequence
        (run.acknowledged ++ [run.store.nextRecord type payload]) := by
      refine h.ascending.snoc hbound ?_
      have hsequence := @sequence_nextRecord run.store type payload hadmitted
      have hlast : run.store.lastSequence = lastOf s.lastSequence run.acknowledged := by
        rw [h.store]
        rfl
      rw [UInt64.lt_iff_toNat_lt, ← hlast, hsequence]
      exact Nat.lt_succ_self _
    cases fault with
    | none =>
      obtain ⟨hlen, hsized⟩ := hmeets hadmission (by simp)
      have hrest := h.rest_eq_nil hs hlen
      have hsized : Sized (run.store.nextRecord type payload) := by
        rcases hsized with hsized | ⟨k, hk, -⟩
        · exact hsized
        · cases hk
      refine ⟨[], ?_, hsnoc, ?_, .inl rfl⟩
      · rw [advanced_write_nil, ← advanced_advanced]
        have hstore := h.store
        rw [hrest, advanced_write_nil] at hstore
        simp only [hstore]
      · intro r hr
        rcases List.mem_append.mp hr with hr | hr
        · exact h.sized r hr
        · rw [List.mem_singleton.mp hr]
          exact hsized
    | some k =>
      by_cases hk : k = 0
      · subst hk
        refine ⟨rest, ?_, h.ascending, h.sized, (h.fail _).rest⟩
        simp only [List.take_zero]
        rw [h.store, write_write, List.append_nil]
      · obtain ⟨hlen, hsized⟩ := hmeets hadmission (by simpa using hk)
        have hrest := h.rest_eq_nil hs hlen
        refine ⟨(run.store.nextRecord type payload).bytes.take k, ?_, h.ascending, h.sized, .inr
          ⟨_, List.mem_append_right _ (List.mem_singleton_self _), k, rfl, hsnoc, ?_⟩⟩
        · have hstore := h.store
          rw [hrest, advanced_write_nil] at hstore
          simp only [hstore]
        · rcases hsized with hsized | ⟨k', hk', hlt⟩
          · exact .inl hsized
          · cases hk'
            exact .inr hlt

/-- A run whose appends meet the condition keeps it well formed. -/
theorem Standing.attempts (hs : Bare s) (h : Standing s run rest) (hmeet : AllMeet run as) :
    ∃ rest', Standing s (run.attempts as) rest' := by
  induction as generalizing run rest with
  | nil => exact ⟨rest, h⟩
  | cons a as ih =>
    obtain ⟨rest', h'⟩ := h.attempt hs hmeet.1
    exact ih h' hmeet.2

/-- The file after a run is a front part of the acknowledged records and at most a failed one. -/
private theorem Standing.front (h : Standing s run rest) :
    ∃ rs bytes, run.store.file = s.file ++ (recordBytes rs).take bytes ∧
      Ascending s.options.maxRecordBytes s.lastSequence rs ∧ Legible bytes rs ∧
      bytes ≤ (recordBytes rs).length ∧ (contained bytes rs = run.acknowledged ∨
        ∃ r ∈ run.failed, contained bytes rs = run.acknowledged ++ [r]) := by
  have hfile : run.store.file = s.file ++ (recordBytes run.acknowledged ++ rest) := by
    rw [h.store, ← List.append_assoc]
    rfl
  rcases h.rest with rfl | ⟨r, hr, k, rfl, hascending, hsized⟩
  · refine ⟨run.acknowledged, (recordBytes run.acknowledged).length, ?_, h.ascending,
      legible_of_sized h.sized _, le_rfl, .inl (contained_all le_rfl)⟩
    rw [hfile, List.take_length, List.append_nil]
  · by_cases hwhole : r.size ≤ k
    · -- all of the failed record was written
      have htake : r.bytes.take k = r.bytes := by
        rw [List.take_of_length_le]
        rwa [JournalRecord.length_bytes]
      have hall : ∀ x ∈ run.acknowledged ++ [r], Sized x := by
        intro x hx
        rcases List.mem_append.mp hx with hx | hx
        · exact h.sized x hx
        · rw [List.mem_singleton.mp hx]
          have hle := max_le_size r
          exact hsized.resolve_right (by omega)
      refine ⟨run.acknowledged ++ [r], (recordBytes (run.acknowledged ++ [r])).length, ?_,
        hascending, legible_of_sized hall _, le_rfl, .inr ⟨r, hr, contained_all le_rfl⟩⟩
      rw [hfile, List.take_length, htake]
      simp
    · refine ⟨run.acknowledged ++ [r], (recordBytes run.acknowledged).length + k, ?_, hascending,
        legible_append h.sized (legible_singleton hsized), ?_, .inl ?_⟩
      · rw [hfile, recordBytes_append, List.take_length_add_append]
        simp
      · simp only [recordBytes_append, recordBytes_cons, recordBytes_nil, List.append_nil,
          List.length_append, JournalRecord.length_bytes]
        omega
      · rw [contained_append, contained, if_neg hwhole, List.append_nil]

/-- What opening the store after a run takes: a format version of two bytes, a file the readers
read in full, and a snapshot file that opens and covers none of the run. -/
structure Opens (s : JournalStore) (run : AppendRun) : Prop where
  version : s.options.formatVersion.toNat < 2 ^ 16
  limit : run.store.file.length ≤ (readLimit s.options).toNat
  snapshot : SnapshotReadable s.options s.files.snapshot
  uncovered : ∀ file ∈ s.files.snapshot, (snapshotOf file).covered ≤ s.lastSequence

private def sampleStore : JournalStore :=
  newStore ⟨ascii "0123456789abcdef0123456789abcdef", canonical_hex⟩

private theorem bare_sampleStore : Bare sampleStore := bare_newStore rfl

/-- An append that fails after four bytes, and an append that succeeds. -/
private def shadowed : List Attempt :=
  [⟨some 4, .epochStarted, List.replicate 100 0⟩, ⟨none, .epochStarted, []⟩]

private theorem attempts_shadowed :
    ({ store := sampleStore : AppendRun }.attempts shadowed) =
      { store := (sampleStore.write (le 4 100)).advanced [⟨.epochStarted, 1, [], 0, 0⟩]
        acknowledged := [⟨.epochStarted, 1, [], 0, 0⟩]
        failed := [⟨.epochStarted, 1, List.replicate 100 0, 0, 0⟩] } := by
  have hfirst : sampleStore.admission (List.replicate 100 0) = .ok () := by decide
  have hsecond : (sampleStore.write (le 4 100)).admission [] = .ok () := by decide
  have hpart : (sampleStore.nextRecord .epochStarted (List.replicate 100 0)).bytes.take 4 =
      le 4 100 := rfl
  simp only [attempts, shadowed, List.foldl_cons, List.foldl_nil, attempt, exec_append, hfirst,
    hpart, hsecond]
  rfl

end AppendRun

end OffloadFabric
