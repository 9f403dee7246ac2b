import OffloadFabric.Journal.Append

/-!
# Front parts of a journal

A front part of a run of records as `scan_records`, `replay` and `open` see it: all three end
behind the records wholly contained in it.
-/

namespace OffloadFabric

open Lib Lib.Fallible

namespace Journal

variable {rs : List JournalRecord}

/-- A record a replay never hides. -/
def NotBase (r : JournalRecord) : Prop := r.type ≠ .snapshotBase

instance : DecidablePred NotBase := fun r ↦ inferInstanceAs (Decidable (r.type ≠ .snapshotBase))

/-- The cut is on a record boundary. -/
def OnBoundary (rs : List JournalRecord) (n : Nat) : Prop :=
  ∃ before after, rs = before ++ after ∧ n = headerSize + (recordBytes before).length

/-- A cut is on a boundary when the contained records fill it. -/
theorem onBoundary_iff {bytes : Nat} : OnBoundary rs (headerSize + bytes) ↔
    (recordBytes (contained bytes rs)).length = bytes := by
  constructor
  · rintro ⟨before, after, rfl, hn⟩
    have hbytes : bytes = (recordBytes before).length := by omega
    have hcontained := contained_append before after 0
    rw [Nat.add_zero, contained_zero, List.append_nil] at hcontained
    rw [hbytes, hcontained]
  · intro h
    obtain ⟨after, hafter⟩ := prefix_contained bytes rs
    exact ⟨contained bytes rs, after, hafter.symm, by rw [h]⟩

end Journal

namespace JournalStore

open Journal

variable {t : JournalStore} {rs : List JournalRecord} {tail : Bytes} {σ : Type}
  {visitor : RecordVisitor σ}

theorem snapshotReadable_withRecovery {options : StoreOpenOptions} {policy : RecoveryPolicy}
    {file : Option Bytes} :
    SnapshotReadable (options.withRecovery policy) file ↔ SnapshotReadable options file := Iff.rfl

/-- A replay of an open store whose file it can read. -/
theorem replay_eq (hopened : t.closed = false) (hlong : headerSize ≤ t.file.length)
    (hlimit : t.file.length ≤ (readLimit t.options).toNat) :
    t.replay visitor =
      replayFrom t.snapshotCovered visitor t.file.length (t.file.drop headerSize) := by
  have hread : readFile t.file (readLimit t.options) = .ok t.file := readFile_ok.mpr ⟨hlimit, rfl⟩
  apply exec_ext
  intro replaying
  rw [replay, exec_bind, exec_check, if_pos hopened]
  simp only [exec_bind, hread, Except.mapError, exec_liftExcept]
  rw [exec_check, if_pos hlong]

/-- A replay of a store over whole records and a tail in front of which it stops. -/
theorem replay_records (hopened : t.closed = false) {header : Bytes}
    (hheader : header.length = headerSize) (hfile : t.file = header ++ (recordBytes rs ++ tail))
    (hlimit : t.file.length ≤ (readLimit t.options).toNat) (hsized : ∀ r ∈ rs, Sized r)
    (hstops : Stops tail) :
    t.replay visitor = goThroughAll (Shown t.snapshotCovered) visitor rs := by
  have hlong : headerSize ≤ t.file.length := by
    rw [hfile, List.length_append, hheader]
    exact Nat.le_add_right _ _
  have hdrop : t.file.drop headerSize = recordBytes rs ++ tail := by
    rw [hfile, ← hheader, List.drop_left]
  have hturns : rs.length ≤ t.file.length := by
    have hrs := length_le_recordBytes rs
    rw [hfile, List.length_append, List.length_append]
    omega
  rw [replay_eq hopened hlong hlimit, hdrop, replayFrom_stopping hsized hturns hstops]

/-- The covered sequence of a store opened again. -/
def coveredBy (snapshot : Option Bytes) : UInt64 :=
  ((snapshot.map snapshotOf).map (·.covered)).getD 0

theorem shown_coveredBy {snapshot : Option Bytes} {r : JournalRecord} (hpos : 0 < r.sequence)
    (huncovered : ∀ file ∈ snapshot, NotBase r → (snapshotOf file).covered < r.sequence) :
    Shown (coveredBy snapshot) r ↔ NotBase r := by
  refine ⟨fun hshown ↦ hshown.1, fun hbase ↦ ⟨hbase, ?_⟩⟩
  cases snapshot with
  | none => exact hpos
  | some file => exact huncovered file rfl hbase

/-- What a store shows that was opened over whole records. -/
theorem replay_recovered {policy : RecoveryPolicy} {files : StoreFiles} {outcome : ScanOutcome}
    (ht : t.Sound) (hsized : ∀ r ∈ rs, Sized r)
    (hlimit : (t.header ++ recordBytes rs).length ≤ (readLimit t.options).toNat) :
    (t.recovered policy files outcome (t.header ++ recordBytes rs)).replay visitor =
      goThroughAll (Shown (coveredBy files.snapshot)) visitor rs := by
  have hfile : (t.recovered policy files outcome (t.header ++ recordBytes rs)).file =
      t.header ++ (recordBytes rs ++ []) := by
    rw [List.append_nil]
    rfl
  exact replay_records rfl ht.length_header hfile hlimit hsized (.inl (by decide))

/-- What both readers find in the cut file. -/
structure CutScan (maxRecordBytes : UInt64) (body : Bytes) (kept : List JournalRecord)
    (boundary : Prop) : Prop where
  accepted : (scanRest maxRecordBytes {} body).accepted = kept
  lastGoodOffset :
    (scanRest maxRecordBytes {} body).lastGoodOffset = headerSize + (recordBytes kept).length
  lastSequence : (scanRest maxRecordBytes {} body).lastSequence = lastOf 0 kept
  damaged : (scanRest maxRecordBytes {} body).damaged = false
  torn : (scanRest maxRecordBytes {} body).torn = true ↔ ¬ boundary
  whole : boundary → body = recordBytes kept
  sized : ∀ r ∈ kept, Sized r
  front : ∃ tail, body = recordBytes kept ++ tail ∧ Stops tail

/-- Whole records, and behind them nothing or a part of a record in front of which both readers
stop. -/
theorem cutScan_tail {maxRecordBytes sequence : UInt64}
    (hascending : Ascending maxRecordBytes sequence rs) (hsized : ∀ r ∈ rs, Sized r)
    (htail : tail = [] ∨ Stops tail ∧ Torn maxRecordBytes tail) :
    CutScan maxRecordBytes (recordBytes rs ++ tail) rs (tail = []) := by
  have hreadable : AllReadable maxRecordBytes {} rs :=
    hascending.allReadable (fun r hr ↦ (hsized r hr).fits) fun r _ ↦ .inl rfl
  have hscan := scanRest_records hreadable tail
  rcases eq_or_ne tail [] with rfl | hne
  · rw [scanRest_nil] at hscan
    refine ⟨?_, ?_, ?_, ?_, ?_, fun _ ↦ List.append_nil _, hsized, [], rfl, .inl (by decide)⟩
    · rw [hscan, accepted_acceptAll]
      rfl
    · rw [hscan, lastGoodOffset_acceptAll]
    · rw [hscan, lastSequence_acceptAll]
    · rw [hscan, damaged_acceptAll]
    · rw [hscan, torn_acceptAll]
      simp
  · obtain ⟨hstops, htorn⟩ := htail.resolve_left hne
    obtain ⟨detail, htear⟩ := scanRest_torn (acceptAll {} rs) hne htorn
    rw [htear] at hscan
    refine ⟨?_, ?_, ?_, ?_, ?_, fun h ↦ absurd h hne, hsized, tail, rfl, hstops⟩
    · rw [hscan]
      exact accepted_acceptAll
    · rw [hscan]
      exact lastGoodOffset_acceptAll
    · rw [hscan]
      exact lastSequence_acceptAll
    · rw [hscan]
      exact damaged_acceptAll
    · rw [hscan]
      simp [ScanOutcome.tear, hne]

/-- **A front part of a run of records is read up to the records contained in it.** -/
theorem cutScan {maxRecordBytes sequence : UInt64} {bytes : Nat}
    (hascending : Ascending maxRecordBytes sequence rs) (hlegible : Legible bytes rs)
    (hbytes : bytes ≤ (recordBytes rs).length) :
    CutScan maxRecordBytes ((recordBytes rs).take bytes) (contained bytes rs)
      (OnBoundary rs (headerSize + bytes)) := by
  obtain ⟨hsized, tail, htake, htail⟩ := take_recordBytes hlegible hascending.bounded
  have hlen : bytes = (recordBytes (contained bytes rs)).length + tail.length := by
    have := congrArg List.length htake
    rw [List.length_take, List.length_append] at this
    omega
  have hboundary : OnBoundary rs (headerSize + bytes) ↔ tail = [] := by
    rw [onBoundary_iff]
    constructor
    · intro h
      exact List.eq_nil_of_length_eq_zero (by omega)
    · intro h
      rw [h] at hlen
      exact hlen.symm
  rw [propext hboundary, htake]
  exact cutScan_tail (hascending.sublist (prefix_contained bytes rs).sublist) hsized htail

/-- What a policy that truncates keeps of the cut file: the contained records. -/
theorem kept_of_truncates {maxRecordBytes : UInt64} {header body : Bytes}
    {kept : List JournalRecord} {boundary : Prop} (policy : RecoveryPolicy)
    (h : CutScan maxRecordBytes body kept boundary) (hheader : header.length = headerSize)
    (hallowed : boundary ∨ policy ≠ .refuse) :
    keptBytes policy (scanRest maxRecordBytes {} body) (header ++ body) =
      some (header ++ recordBytes kept) := by
  unfold keptBytes
  by_cases hboundary : boundary
  · have htorn : (scanRest maxRecordBytes {} body).torn = false := by
      rw [Bool.eq_false_iff]
      exact fun htrue ↦ h.torn.mp htrue hboundary
    rw [if_neg (by simp [htorn, h.damaged]), h.whole hboundary]
  · have htorn := h.torn.mpr hboundary
    have htruncates : tailTruncationAllowed policy (scanRest maxRecordBytes {} body) := by
      cases policy with
      | refuse => exact absurd rfl (hallowed.resolve_left hboundary)
      | truncateTornTail => exact .inl ⟨htorn, rfl⟩
      | truncateDamagedTail => exact .inr rfl
    rw [if_pos (.inl htorn), if_pos htruncates, h.lastGoodOffset]
    obtain ⟨tail, hfront, -⟩ := h.front
    rw [hfront, ← List.append_assoc, ← hheader, ← List.length_append, List.take_left]

/-- What a policy keeps of the cut file: the contained records, unless the cut is inside a record
and the policy does not truncate it. -/
theorem kept_of_cutScan {maxRecordBytes : UInt64} {header body : Bytes}
    {kept : List JournalRecord} {boundary : Prop} (policy : RecoveryPolicy)
    (h : CutScan maxRecordBytes body kept boundary) (hheader : header.length = headerSize)
    (hallowed : boundary ∨ policy = .truncateTornTail) :
    keptBytes policy (scanRest maxRecordBytes {} body) (header ++ body) =
      some (header ++ recordBytes kept) := by
  refine kept_of_truncates policy h hheader (hallowed.imp_right fun htorn ↦ ?_)
  rw [htorn]
  decide

end JournalStore

end OffloadFabric
