import OffloadFabric.Journal.Session

/-!
# Stores behind a log

A session of a store stands behind a log when its files hold the snapshot and the records of the
log. Every call that is made where the log speaks for the store keeps it so, with the answer of
the log.
-/

namespace OffloadFabric

open Lib Lib.Fallible

namespace Journal

/-! ## Snapshot files -/

variable {options : StoreOpenOptions} {formatVersion : UInt32} {snapshot : StoreSnapshot}

/-- The checksummed bytes of a snapshot file. -/
def snapshotFields (formatVersion : UInt32) (snapshot : StoreSnapshot) : Bytes :=
  le 4 snapshotMagic ++ le 2 formatVersion.toNat ++ le 2 Wire.canonicalEncodingVersion.toNat ++
    le 4 snapshot.payload.length ++ le 4 (crc32c snapshot.payload).toNat ++
    le 8 snapshot.covered.toNat ++ le 8 snapshot.generation.toNat

theorem snapshotBytes_eq (formatVersion : UInt32) (snapshot : StoreSnapshot) :
    snapshotBytes formatVersion snapshot = snapshotFields formatVersion snapshot ++
      (le 4 (crc32c (snapshotFields formatVersion snapshot)).toNat ++ snapshot.payload) := by
  unfold snapshotBytes snapshotFields
  simp only [List.append_assoc]

@[simp] theorem length_snapshotFields :
    (snapshotFields formatVersion snapshot).length = 32 := by
  simp [snapshotFields]

@[simp] theorem length_snapshotBytes :
    (snapshotBytes formatVersion snapshot).length =
      snapshotHeaderSize + snapshot.payload.length := by
  simp [snapshotBytes_eq, snapshotHeaderSize]
  omega

/-- The fields of a snapshot file as it was written. -/
structure FieldsOf (formatVersion : UInt32) (snapshot : StoreSnapshot) (data : Bytes) : Prop where
  magic : field 4 0 data = snapshotMagic
  version : field 2 4 data = formatVersion.toNat % 2 ^ 16
  canonical : field 2 6 data = Wire.canonicalEncodingVersion.toNat
  size : field 4 8 data = snapshot.payload.length % 2 ^ 32
  payloadSum : field 4 12 data = (crc32c snapshot.payload).toNat
  covered : field 8 16 data = snapshot.covered.toNat
  generation : field 8 24 data = snapshot.generation.toNat
  sum : field 4 32 data = (crc32c (data.take 32)).toNat
  payload : data.drop snapshotHeaderSize = snapshot.payload

theorem fieldsOf_snapshotBytes (formatVersion : UInt32) (snapshot : StoreSnapshot) :
    FieldsOf formatVersion snapshot (snapshotBytes formatVersion snapshot) := by
  have hpayload := (crc32c snapshot.payload).toNat_lt
  have hsum := (crc32c (snapshotFields formatVersion snapshot)).toNat_lt
  have hfields : (snapshotBytes formatVersion snapshot).take 32 =
      snapshotFields formatVersion snapshot := by
    rw [snapshotBytes_eq, ← length_snapshotFields, List.take_left]
  have hbytes : snapshotBytes formatVersion snapshot =
      le 4 snapshotMagic ++ (le 2 formatVersion.toNat ++
        (le 2 Wire.canonicalEncodingVersion.toNat ++ (le 4 snapshot.payload.length ++
          (le 4 (crc32c snapshot.payload).toNat ++ (le 8 snapshot.covered.toNat ++
            (le 8 snapshot.generation.toNat ++
              (le 4 (crc32c (snapshotFields formatVersion snapshot)).toNat ++
                snapshot.payload))))))) := by
    rw [snapshotBytes_eq]
    simp only [snapshotFields, List.append_assoc]
  refine ⟨?_, ?_, ?_, ?_, ?_, ?_, ?_, ?_, ?_⟩
  · rw [hbytes, field_zero_le]
    rfl
  · rw [hbytes]
    simp (disch := omega) only [field_skip, Nat.reduceSub, field_zero_le]
    rfl
  · rw [hbytes]
    simp (disch := omega) only [field_skip, Nat.reduceSub, field_zero_le]
    rfl
  · rw [hbytes]
    simp (disch := omega) only [field_skip, Nat.reduceSub, field_zero_le]
    rfl
  · rw [hbytes]
    simp (disch := omega) only [field_skip, Nat.reduceSub, field_zero_le]
    exact Nat.mod_eq_of_lt hpayload
  · rw [hbytes]
    simp (disch := omega) only [field_skip, Nat.reduceSub, field_zero_le]
    exact Nat.mod_eq_of_lt snapshot.covered.toNat_lt
  · rw [hbytes]
    simp (disch := omega) only [field_skip, Nat.reduceSub, field_zero_le]
    exact Nat.mod_eq_of_lt snapshot.generation.toNat_lt
  · rw [hfields, hbytes]
    simp (disch := omega) only [field_skip, Nat.reduceSub, field_zero_le]
    exact Nat.mod_eq_of_lt hsum
  · have hlen : (snapshotFields formatVersion snapshot ++
        le 4 (crc32c (snapshotFields formatVersion snapshot)).toNat).length =
        snapshotHeaderSize := by
      simp [snapshotHeaderSize]
    rw [snapshotBytes_eq, ← List.append_assoc, ← hlen, List.drop_left]

/-- A snapshot file gives back its snapshot. -/
theorem snapshotOf_snapshotBytes (formatVersion : UInt32) (snapshot : StoreSnapshot) :
    snapshotOf (snapshotBytes formatVersion snapshot) = snapshot := by
  have h := fieldsOf_snapshotBytes formatVersion snapshot
  unfold snapshotOf
  rw [h.payload, h.covered, h.generation, UInt64.ofNat_toNat, UInt64.ofNat_toNat]

/-- **A snapshot file is read back** when it is within the bound of the options and its lengths
fit their fields. -/
theorem readSnapshotFile_snapshotBytes {o : Opening}
    (hversion : options.formatVersion.toNat < 2 ^ 16)
    (hfits : snapshot.payload.length < 2 ^ 32)
    (hlimit : snapshotHeaderSize + snapshot.payload.length ≤ options.maxSnapshotBytes.toNat) :
    (readSnapshotFile options (snapshotBytes options.formatVersion snapshot)).exec o =
      (.ok snapshot, o) := by
  have h := fieldsOf_snapshotBytes options.formatVersion snapshot
  have hlength : (snapshotBytes options.formatVersion snapshot).length =
      snapshotHeaderSize + snapshot.payload.length := length_snapshotBytes
  have hread : readFile (snapshotBytes options.formatVersion snapshot) options.maxSnapshotBytes =
      .ok (snapshotBytes options.formatVersion snapshot) :=
    readFile_ok.mpr ⟨hlength.trans_le hlimit, rfl⟩
  have hsize : field 4 8 (snapshotBytes options.formatVersion snapshot) =
      snapshot.payload.length := h.size.trans (Nat.mod_eq_of_lt hfits)
  have hfront : snapshotHeaderSize ≤ (snapshotBytes options.formatVersion snapshot).length := by
    rw [hlength]
    exact Nat.le_add_right _ _
  rw [readSnapshotFile, exec_reported_bind hread, exec_demand_bind ⟨hfront, h.magic⟩,
    exec_demand_bind ⟨h.version.trans (Nat.mod_eq_of_lt hversion), h.canonical⟩,
    exec_demand_bind (by rw [hsize]; omega), exec_demand_bind h.sum,
    exec_demand_bind (by rw [hlength, hsize]),
    exec_demand_bind (by rw [h.payloadSum, h.payload]), exec_pure]
  exact congrArg (fun snapshot ↦ (Except.ok snapshot, o))
    (snapshotOf_snapshotBytes options.formatVersion snapshot)

/-- A snapshot file past the bound of the options is refused. -/
theorem readSnapshot_oversized {file : Bytes}
    (hlong : ¬ file.length ≤ options.maxSnapshotBytes.toNat) (o : Opening) :
    (readSnapshot options (some file)).exec o =
      (.error ⟨.oversizedInput, "store file exceeds the configured size bound"⟩,
        { o with report := { o.report with
          classification := .refusedCorrupt, reason := .oversizedInput } }) := by
  have hread : readFile file options.maxSnapshotBytes =
      .error ⟨.oversizedInput, "store file exceeds the configured size bound"⟩ := if_neg hlong
  rw [readSnapshot, exec_map, readSnapshotFile, hread]
  rfl

end Journal

/-! ## The store behind a log -/

/-- The lengths of records and snapshots fit their fields, and no limit of the store wraps. -/
structure Bounds.Encodable (b : Bounds) : Prop where
  record : b.maxRecordBytes.toNat + 24 < 2 ^ 32
  snapshot : b.maxSnapshotBytes.toNat < 2 ^ 32
  journal : b.maxJournalBytes.toNat * 2 + b.maxRecordBytes.toNat * 4 < 2 ^ 64

/-- What the files of a store hold: whole records, the bytes behind them, and what the snapshot
says of itself. -/
structure StoreContents where
  records : List JournalRecord
  tail : Bytes
  covered : UInt64
  generation : Gen

open Journal JournalStore

/-- The records that a replay shows, as a log keeps them. -/
def shownRecords (covered : UInt64) (rs : List JournalRecord) : List (RecordType × Bytes) :=
  (rs.filter fun r ↦ Shown covered r).map fun r ↦ (r.type, r.payload)

/-- The store of a session stands behind a log. -/
structure Mirrors (b : Bounds) (recovery : RecoveryPolicy) (expected : StoreId)
    (contents : StoreContents) (session : StoreSession) (log : Log) : Prop where
  sound : session.store.Sound
  options : session.store.options = storeOptions b recovery expected
  opened : session.store.closed = false
  journal : session.store.files.journal =
    some (session.store.header ++ (recordBytes contents.records ++ contents.tail))
  tail : contents.tail = [] ∨ Stops contents.tail ∧ Torn b.maxRecordBytes contents.tail
  bytes : session.store.bytes = headerSize + (recordBytes contents.records).length
  room : session.store.file.length ≤ b.maxJournalBytes.toNat * 2
  ascending : Ascending b.maxRecordBytes 0 contents.records
  last : lastOf session.store.lastSequence contents.records = session.store.lastSequence
  snapshot : session.store.files.snapshot =
    log.snapshot.map fun payload ↦ snapshotBytes 1 ⟨payload, contents.covered, contents.generation⟩
  bounded : ∀ payload ∈ log.snapshot, payload.length ≤ b.maxSnapshotBytes.toNat
  uncovered : log.snapshot = none → contents.covered = 0
  covers : contents.covered ≤ session.store.lastSequence
  installed : session.store.snapshotCovered ≤ session.store.lastSequence
  records : log.records = shownRecords contents.covered contents.records
  counted : log.bytes = session.store.bytes
  writable : log.writable = session.writable

/-- The store of a session stands behind a log, whatever its files hold. -/
def Mirrored (b : Bounds) (recovery : RecoveryPolicy) (expected : StoreId)
    (session : StoreSession) (log : Log) : Prop :=
  ∃ contents, Mirrors b recovery expected contents session log

variable {b : Bounds} {recovery : RecoveryPolicy} {expected : StoreId} {contents : StoreContents}
  {session : StoreSession} {log : Log} {type : RecordType} {payload : Bytes}

theorem shownRecords_snoc {covered : UInt64} {rs : List JournalRecord} {r : JournalRecord}
    (h : Shown covered r) :
    shownRecords covered (rs ++ [r]) = shownRecords covered rs ++ [(r.type, r.payload)] := by
  have hone : [r].filter (fun r ↦ Shown covered r) = [r] := by simp [h]
  unfold shownRecords
  rw [List.filter_append, List.map_append, hone, List.map_singleton]

theorem shownRecords_eq_nil {covered : UInt64} {rs : List JournalRecord}
    (h : ∀ r ∈ rs, ¬ Shown covered r) : shownRecords covered rs = [] := by
  unfold shownRecords
  rw [List.map_eq_nil_iff, List.filter_eq_nil_iff]
  intro r hr
  simp [h r hr]

theorem JournalStore.lastOf_append (sequence : UInt64) (rs : List JournalRecord)
    (r : JournalRecord) : lastOf sequence (rs ++ [r]) = r.sequence := by
  unfold lastOf
  rw [List.foldl_append]
  rfl

theorem JournalStore.lastOf_le {sequence sequence' : UInt64} (h : sequence ≤ sequence')
    (rs : List JournalRecord) : lastOf sequence rs ≤ lastOf sequence' rs := by
  cases rs with
  | nil => exact h
  | cons r rs => exact le_rfl

/-- No record of a journal is later than the last one. -/
theorem JournalStore.Ascending.le_lastOf {maxRecordBytes sequence : UInt64}
    {rs : List JournalRecord} (h : Ascending maxRecordBytes sequence rs) {r : JournalRecord}
    (hr : r ∈ rs) : r.sequence ≤ lastOf sequence rs := by
  induction rs using List.reverseRecOn with
  | nil => cases hr
  | append_singleton rs x ih =>
    rw [lastOf_append]
    rcases List.mem_append.mp hr with hr | hr
    · have hsorted := h.sorted
      rw [List.map_append, List.pairwise_append] at hsorted
      exact le_of_lt (hsorted.2.2 _ (List.mem_map_of_mem hr) _ (by simp))
    · rw [List.mem_singleton.mp hr]

namespace StoreSession

theorem exec_onStore {α : Type} (x : Fallible JournalStore Error α) (session : StoreSession) :
    (onStore x).exec session =
      ((x.exec session.store).1, { session with store := (x.exec session.store).2 }) := by
  unfold onStore
  rw [exec_bind, exec_get]
  simp only
  cases x.exec session.store with
  | mk r store => cases r <;> rfl

end StoreSession

namespace Mirrors

/-- The bounds are those the store was opened with. -/
theorem limits (h : Mirrors b recovery expected contents session log) :
    256 ≤ b.maxRecordBytes.toNat ∧ b.maxRecordBytes.toNat ≤ b.maxJournalBytes.toNat := by
  have husable := h.sound.usable
  rw [h.options] at husable
  obtain ⟨hrecord, hjournal, -⟩ := husable
  exact ⟨UInt64.le_iff_toNat_le.mp hrecord, UInt64.le_iff_toNat_le.mp hjournal⟩

/-- The sequences of a journal end at or before the last one of its store. -/
theorem lastOf_le (h : Mirrors b recovery expected contents session log) :
    lastOf 0 contents.records ≤ session.store.lastSequence :=
  (JournalStore.lastOf_le UInt64.zero_le _).trans_eq h.last

theorem file (h : Mirrors b recovery expected contents session log) :
    session.store.file =
      session.store.header ++ (recordBytes contents.records ++ contents.tail) := by
  unfold JournalStore.file
  rw [h.journal]
  rfl

/-- Nothing stands behind the records of a file that is as long as the store counts it. -/
theorem tail_nil (h : Mirrors b recovery expected contents session log)
    (hlength : session.store.file.length = session.store.bytes) : contents.tail = [] := by
  rw [h.file, h.bytes, List.length_append, List.length_append, h.sound.length_header] at hlength
  exact List.eq_nil_of_length_eq_zero (by omega)

theorem length_file (h : Mirrors b recovery expected contents session log)
    (htail : contents.tail = []) : session.store.file.length = session.store.bytes := by
  rw [h.file, h.bytes, htail, List.append_nil, List.length_append, h.sound.length_header]

/-- Every record of the journal is of a size that does not wrap. -/
theorem sized (h : Mirrors b recovery expected contents session log) (hb : b.Encodable) :
    ∀ r ∈ contents.records, Sized r := by
  intro r hr
  have hbound := h.ascending.bounded r hr
  have hrecord := hb.record
  simp only [Sized, JournalRecord.size, recordHeaderSize, recordTrailerSize]
  omega

/-- The store refuses a payload for its size where the log does. -/
theorem admission_eq (h : Mirrors b recovery expected contents session log)
    (hsequence : session.store.lastSequence.toNat + 1 < 2 ^ 64)
    (hpayload : payload.length ≤ b.maxRecordBytes.toNat) :
    session.store.admission payload = Log.admission b log.bytes payload.length := by
  have hoptions := h.options
  have hlength : recordHeaderSize + payload.length + recordTrailerSize = payload.length + 24 := by
    simp only [recordHeaderSize, recordTrailerSize]
    omega
  unfold JournalStore.admission Log.admission
  rw [hlength, h.counted, hoptions]
  have hrest : require (session.store.lastSequence.toNat + 1 < 2 ^ 64)
      (⟨.arithmeticOverflow, "journal sequence exhausted"⟩ : Error) = .ok () :=
    require_eq_ok.mpr hsequence
  have hopened : require (session.store.closed = false)
      (⟨.storeClosed, "store is closed"⟩ : Error) = .ok () := require_eq_ok.mpr h.opened
  have hsize : require (payload.length ≤ (storeOptions b recovery expected).maxRecordBytes.toNat)
      (⟨.oversizedInput, "record payload exceeds the configured bound"⟩ : Error) = .ok () :=
    require_eq_ok.mpr hpayload
  have hlimit : (storeOptions b recovery expected).maxJournalBytes = b.maxJournalBytes := rfl
  rw [hopened, hsize, hrest, hlimit]
  unfold require
  split_ifs <;> rfl

theorem admission_oversized (h : Mirrors b recovery expected contents session log)
    (hpayload : ¬ payload.length ≤ b.maxRecordBytes.toNat) :
    session.store.admission payload =
      .error ⟨.oversizedInput, "record payload exceeds the configured bound"⟩ := by
  unfold JournalStore.admission
  have hopened : require (session.store.closed = false)
      (⟨.storeClosed, "store is closed"⟩ : Error) = .ok () := require_eq_ok.mpr h.opened
  rw [hopened, h.options]
  have hsize : require (payload.length ≤ (storeOptions b recovery expected).maxRecordBytes.toNat)
      (⟨.oversizedInput, "record payload exceeds the configured bound"⟩ : Error) =
        .error ⟨.oversizedInput, "record payload exceeds the configured bound"⟩ := if_neg hpayload
  rw [hsize]
  rfl

/-! ## Appends -/

theorem next_above (hsequence : session.store.lastSequence.toNat + 1 < 2 ^ 64) :
    session.store.lastSequence < (session.store.nextRecord type payload).sequence := by
  have hone : (session.store.lastSequence + 1).toNat = session.store.lastSequence.toNat + 1 :=
    Nat.mod_eq_of_lt hsequence
  rw [UInt64.lt_iff_toNat_lt]
  exact hone ▸ Nat.lt_succ_self _

/-- The next record is shown, unless it is a base. -/
theorem shown_next (h : Mirrors b recovery expected contents session log)
    (hsequence : session.store.lastSequence.toNat + 1 < 2 ^ 64) (htype : type ≠ .snapshotBase) :
    Shown contents.covered (session.store.nextRecord type payload) :=
  ⟨htype, lt_of_le_of_lt h.covers (next_above hsequence)⟩

/-- A record at the end of the file, in full. -/
theorem appended (h : Mirrors b recovery expected contents session log) (type : RecordType)
    (htail : contents.tail = [])
    (hsequence : session.store.lastSequence.toNat + 1 < 2 ^ 64)
    (hpayload : payload.length ≤ b.maxRecordBytes.toNat)
    (hroom : session.store.bytes + (payload.length + 24) ≤ b.maxJournalBytes.toNat * 2)
    (faults : List Fault) :
    Mirrors b recovery expected
      { contents with records := contents.records ++ [session.store.nextRecord type payload] }
      { session with
        store := session.store.advanced [session.store.nextRecord type payload] }
      { log with
        records := shownRecords contents.covered
          (contents.records ++ [session.store.nextRecord type payload])
        bytes := log.bytes + (payload.length + 24), faults } := by
  have hnext := @next_above session type payload hsequence
  have hsize : (session.store.nextRecord type payload).size = payload.length + 24 := by
    simp only [JournalRecord.size, nextRecord, recordHeaderSize, recordTrailerSize]
    omega
  have hfile : session.store.file ++ recordBytes [session.store.nextRecord type payload] =
      session.store.header ++ (recordBytes (contents.records ++
        [session.store.nextRecord type payload]) ++ contents.tail) := by
    rw [h.file, htail]
    simp
  exact
    { h with
      sound := h.sound.advanced _
      journal := congrArg some hfile
      bytes := by
        show session.store.bytes + _ = _
        rw [h.bytes, recordBytes_append, List.length_append, Nat.add_assoc]
      room := by
        rw [file_advanced, List.length_append, recordBytes_singleton,
          JournalRecord.length_bytes, hsize, h.length_file htail]
        exact hroom
      ascending := h.ascending.snoc hpayload (lt_of_le_of_lt h.lastOf_le hnext)
      last := by
        rw [JournalStore.lastOf_append]
        rfl
      covers := h.covers.trans hnext.le
      installed := h.installed.trans hnext.le
      records := rfl
      counted := by
        show log.bytes + _ = session.store.bytes + _
        rw [h.counted, recordBytes_singleton, JournalRecord.length_bytes, hsize] }

/-- A part of a record at the end of the file. -/
theorem torn (h : Mirrors b recovery expected contents session log) (hb : b.Encodable)
    (htail : contents.tail = []) {k : Nat}
    (hk : k < recordHeaderSize + payload.length + recordTrailerSize)
    (hpayload : payload.length ≤ b.maxRecordBytes.toNat)
    (hroom : session.store.bytes + (payload.length + 24) ≤ b.maxJournalBytes.toNat * 2)
    (faults : List Fault) :
    Mirrors b recovery expected
      { contents with tail := (session.store.nextRecord type payload).bytes.take k }
      { session with
        store := session.store.write ((session.store.nextRecord type payload).bytes.take k) }
      { log with faults } := by
  have hrecord := hb.record
  have hsized : Sized (session.store.nextRecord type payload) := by
    simp only [Sized, JournalRecord.size, nextRecord, recordHeaderSize, recordTrailerSize]
    omega
  have hstops := @stops_take b.maxRecordBytes _ _ hk (.inl hsized) hpayload
  have hfile : session.store.file ++ (session.store.nextRecord type payload).bytes.take k =
      session.store.header ++ (recordBytes contents.records ++
        (session.store.nextRecord type payload).bytes.take k) := by
    rw [h.file, htail]
    simp
  exact
    { h with
      sound := ⟨h.sound.usable, h.sound.identity, h.sound.expected⟩
      journal := congrArg some hfile
      tail := .inr hstops
      room := by
        show (session.store.file ++ _).length ≤ _
        rw [List.length_append, List.length_take, h.length_file htail]
        simp only [recordHeaderSize, recordTrailerSize] at hk
        omega }

end Mirrors

/-- What an append of the log does where it meets a fault. -/
theorem Log.exec_append (b : Bounds) (type : RecordType) (payload : Bytes) (fault : Fault)
    (log : Log) (hpayload : payload.length ≤ b.maxRecordBytes.toNat) :
    (Log.append b type payload).exec { log with faults := [fault] } =
      match Log.admission b log.bytes payload.length with
      | .error e => (.error e, { log with faults := [fault] })
      | .ok _ =>
        if log.writable = true ∧ fault = .none then
          (.ok (), { log with
            records := log.records ++ [(type, payload)]
            bytes := log.bytes + (payload.length + 24), faults := [] })
        else (.error Log.unavailable, { log with faults := [] }) := by
  unfold Log.append
  rw [exec_bind, exec_get]
  simp only [exec_bind, exec_check, if_pos hpayload, exec_liftExcept]
  cases Log.admission b log.bytes payload.length with
  | error e => rfl
  | ok u =>
    unfold Log.takeFault
    simp only [exec_bind, exec_get, exec_set, exec_pure]
    split <;> rfl

theorem Log.exec_append_oversized (log : Log) (hpayload : ¬ payload.length ≤ b.maxRecordBytes.toNat) :
    (Log.append b type payload).exec log =
      (.error ⟨.oversizedInput, "record payload exceeds the configured bound"⟩, log) := by
  unfold Log.append
  rw [exec_bind, exec_get]
  simp only [exec_bind, exec_check, if_neg hpayload]

theorem Log.room_of_admission {bytes size : Nat} {u : Unit}
    (h : Log.admission b bytes size = .ok u) :
    bytes + (size + 24) ≤ b.maxJournalBytes.toNat * 2 := by
  unfold Log.admission at h
  simp only [require_bind_eq_ok, require_eq_ok] at h
  exact h.2.2.2

/-- **An append** that is made where the log speaks for the store. -/
theorem Mirrors.append (h : Mirrors b recovery expected contents session log) (hb : b.Encodable)
    {short : Option Nat} (hregular : (StoreCall.append short type payload).Regular session) :
    Agree (Mirrored b recovery expected) (StoreCall.append short type payload).onStore
      ((StoreCall.append short type payload).onLog b) session log := by
  obtain ⟨-, hwritable, htype, hsequence, hlength, hshort⟩ := hregular
  have htail := h.tail_nil hlength
  have hopen : log.writable = true := h.writable.trans hwritable
  refine Agree.prepared (Agree.map ?_ none)
  have hstore := StoreSession.exec_onStore (JournalStore.append short type payload) session
  rw [JournalStore.exec_append] at hstore
  by_cases hpayload : payload.length ≤ b.maxRecordBytes.toNat
  · have hlog := Log.exec_append b type payload (StoreCall.append short type payload).fault log
      hpayload
    rw [h.admission_eq hsequence hpayload] at hstore
    cases hadmission : Log.admission b log.bytes payload.length with
    | error e =>
      rw [hadmission] at hstore hlog
      exact .of_exec hstore hlog ⟨contents, { h with }⟩
    | ok u =>
      rw [hadmission] at hstore hlog
      have hroom : session.store.bytes + (payload.length + 24) ≤ b.maxJournalBytes.toNat * 2 := by
        rw [← h.counted]
        exact Log.room_of_admission hadmission
      cases short with
      | none =>
        rw [if_pos ⟨hopen, rfl⟩] at hlog
        have hmirrors := h.appended type htail hsequence hpayload hroom []
        rw [shownRecords_snoc (h.shown_next hsequence htype), ← h.records] at hmirrors
        exact .of_exec hstore hlog ⟨_, hmirrors⟩
      | some k =>
        rw [if_neg (by rintro ⟨-, hfault⟩; cases hfault)] at hlog
        exact .of_exec hstore hlog ⟨_, h.torn hb htail (hshort k rfl) hpayload hroom []⟩
  · rw [h.admission_oversized hpayload] at hstore
    exact .of_exec hstore (Log.exec_append_oversized _ hpayload) ⟨contents, { h with }⟩

/-! ## Compactions -/

/-- What a compaction of the log does where it meets a fault, if its snapshot is within the
bound. -/
theorem Log.exec_compact (fault : Fault) (log : Log)
    (hpayload : payload.length ≤ b.maxSnapshotBytes.toNat)
    (hbase : Log.admission b 64 24 = .ok ()) :
    (Log.compact b payload).exec { log with faults := [fault] } =
      match fault with
      | .none => (.ok (), { log with
          snapshot := some payload, records := [], bytes := 112, writable := true, faults := [] })
      | .lost => (.error Log.unavailable, { log with faults := [] })
      | .installed => (.error Log.unavailable, { log with
          snapshot := some payload, records := [], writable := false, faults := [] })
      | .emptied => (.error Log.unavailable, { log with
          snapshot := some payload, records := [], bytes := 64, writable := true, faults := [] }) := by
  unfold Log.compact Log.takeFault
  simp only [exec_bind, exec_check, if_pos hpayload, exec_get, exec_set, exec_pure]
  cases fault with
  | none =>
    simp only [exec_bind, exec_modify, hbase, exec_liftExcept]
  | lost => rfl
  | installed => rfl
  | emptied => rfl

theorem Log.exec_compact_oversized (log : Log)
    (hpayload : ¬ payload.length ≤ b.maxSnapshotBytes.toNat) :
    (Log.compact b payload).exec log =
      (.error ⟨.oversizedInput, "snapshot exceeds the configured bound"⟩, log) := by
  unfold Log.compact
  simp only [exec_bind, exec_check, if_neg hpayload]

namespace Mirrors

theorem exec_checkCompaction (h : Mirrors b recovery expected contents session log)
    (hpayload : payload.length ≤ b.maxSnapshotBytes.toNat) :
    (StoreSession.checkCompaction payload session.store.lastSequence).exec session.store =
      (.ok (), session.store) := by
  have hbound : payload.length ≤ session.store.options.maxSnapshotBytes.toNat := by
    rw [h.options]
    exact hpayload
  unfold StoreSession.checkCompaction
  simp only [exec_bind, exec_get, exec_check, if_pos h.opened, if_pos hbound, if_pos h.installed]

theorem exec_checkCompaction_oversized (h : Mirrors b recovery expected contents session log)
    (hpayload : ¬ payload.length ≤ b.maxSnapshotBytes.toNat) :
    (StoreSession.checkCompaction payload session.store.lastSequence).exec session.store =
      (.error ⟨.oversizedInput, "snapshot exceeds the configured bound"⟩, session.store) := by
  have hbound : ¬ payload.length ≤ session.store.options.maxSnapshotBytes.toNat := by
    rw [h.options]
    exact hpayload
  unfold StoreSession.checkCompaction
  simp only [exec_bind, exec_get, exec_check, if_pos h.opened, if_neg hbound]

end Mirrors

/-- The store behind the two replacements of a compaction. -/
def JournalStore.emptied (s : JournalStore) (payload : Bytes) (generation : Gen) : JournalStore :=
  let snapshot : StoreSnapshot := ⟨payload, s.lastSequence, generation⟩
  { s with
    files := { s.files with
      snapshot := some (snapshotBytes s.options.formatVersion snapshot), journal := some s.header }
    snapshot := some snapshot
    bytes := headerSize }

namespace Mirrors

theorem exec_install (h : Mirrors b recovery expected contents session log)
    (hpayload : payload.length ≤ b.maxSnapshotBytes.toNat) (generation : Gen) :
    (JournalStore.install payload session.store.lastSequence generation).exec session.store =
      (.ok (), session.store.emptied payload generation) := by
  have hbound : payload.length ≤ session.store.options.maxSnapshotBytes.toNat := by
    rw [h.options]
    exact hpayload
  have hheader : buildHeader session.store.storeId session.store.createdAt
      session.store.options.formatVersion ≠ [] := by
    intro hnil
    have hlength := h.sound.length_header
    unfold JournalStore.header at hlength
    rw [hnil] at hlength
    cases hlength
  unfold JournalStore.install
  simp only [exec_bind, exec_get, exec_check, if_pos h.opened, if_pos hbound, if_pos h.installed,
    exec_modify, if_pos hheader]
  rfl

theorem exec_install_oversized (h : Mirrors b recovery expected contents session log)
    (hpayload : ¬ payload.length ≤ b.maxSnapshotBytes.toNat) (generation : Gen) :
    (JournalStore.install payload session.store.lastSequence generation).exec session.store =
      (.error ⟨.oversizedInput, "snapshot exceeds the configured bound"⟩, session.store) := by
  have hbound : ¬ payload.length ≤ session.store.options.maxSnapshotBytes.toNat := by
    rw [h.options]
    exact hpayload
  unfold JournalStore.install
  simp only [exec_bind, exec_get, exec_check, if_pos h.opened, if_neg hbound]

/-- What a snapshot of everything so far covers is shown no more. -/
private theorem covered_shown (h : Mirrors b recovery expected contents session log) :
    shownRecords session.store.lastSequence contents.records = [] :=
  shownRecords_eq_nil fun _ hr hshown ↦
    absurd ((h.ascending.le_lastOf hr).trans h.lastOf_le) (not_le_of_gt hshown.2)

/-- The store behind the installation of a snapshot: the journal is closed. -/
theorem closed (h : Mirrors b recovery expected contents session log)
    (hpayload : payload.length ≤ b.maxSnapshotBytes.toNat) (generation : Gen)
    (tmp : Option Bytes) (faults : List Fault) :
    Mirrors b recovery expected
      { contents with covered := session.store.lastSequence, generation }
      { session with
        store := { session.store with
          files := { session.store.files with
            snapshot := some (snapshotBytes session.store.options.formatVersion
              ⟨payload, session.store.lastSequence, generation⟩)
            snapshotTmp := none, journalTmp := tmp } }
        writable := false }
      { log with snapshot := some payload, records := [], writable := false, faults } :=
  { h with
    sound := ⟨h.sound.usable, h.sound.identity, h.sound.expected⟩
    snapshot := by rw [h.options]; rfl
    bounded := fun _ hp ↦ by cases hp; exact hpayload
    uncovered := fun hnone ↦ by cases hnone
    covers := le_rfl
    records := h.covered_shown.symm
    writable := rfl }

/-- The store behind the replacement of its journal. -/
theorem emptied (h : Mirrors b recovery expected contents session log)
    (hpayload : payload.length ≤ b.maxSnapshotBytes.toNat) (generation : Gen)
    (faults : List Fault) :
    Mirrors b recovery expected
      { records := [], tail := [], covered := session.store.lastSequence, generation }
      { session with store := session.store.emptied payload generation, writable := true }
      { log with
        snapshot := some payload, records := [], bytes := 64, writable := true, faults } :=
  { h with
    sound := ⟨h.sound.usable, h.sound.identity, h.sound.expected⟩
    journal := by
      show some session.store.header = some (session.store.header ++ ([] ++ []))
      rw [List.append_nil, List.append_nil]
    tail := .inl rfl
    bytes := rfl
    room := by
      show session.store.header.length ≤ _
      rw [h.sound.length_header]
      obtain ⟨hrecord, hjournal⟩ := h.limits
      simp only [headerSize]
      omega
    ascending := ⟨by simp, by simp, by simp⟩
    last := rfl
    snapshot := by
      show some _ = some _
      rw [h.options]
      rfl
    bounded := fun _ hp ↦ by cases hp; exact hpayload
    uncovered := fun hnone ↦ by cases hnone
    covers := le_rfl
    installed := le_rfl
    records := rfl
    counted := rfl
    writable := rfl }

/-- The base record of a compaction is within the limits. -/
theorem base_admitted (h : Mirrors b recovery expected contents session log) (hb : b.Encodable) :
    Log.admission b 64 24 = .ok () := by
  obtain ⟨hrecord, hjournal⟩ := h.limits
  have hwide := hb.journal
  unfold Log.admission
  simp only [require_bind_eq_ok, require_eq_ok]
  omega

/-- Part of a snapshot is left beside the installed one. -/
private theorem exec_stopped (h : Mirrors b recovery expected contents session log)
    (hpayload : payload.length ≤ b.maxSnapshotBytes.toNat) (k : Nat) :
    ∃ tmp, (StoreSession.compact (some (.snapshot k)) payload).exec session =
      (.error Log.unavailable, { session with store := { session.store with
        files := { session.store.files with snapshotTmp := tmp } } }) := by
  refine ⟨some ((snapshotBytes session.store.options.formatVersion
    ⟨payload, session.store.lastSequence, session.store.generation + 1⟩).take k), ?_⟩
  unfold StoreSession.compact
  simp only [exec_bind, exec_get, StoreSession.exec_onStore, h.exec_checkCompaction hpayload,
    exec_modify, exec_throw]

private theorem exec_closed (h : Mirrors b recovery expected contents session log)
    (hpayload : payload.length ≤ b.maxSnapshotBytes.toNat) (k : Nat) :
    (StoreSession.compact (some (.journal k)) payload).exec session =
      (.error Log.unavailable, { session with
        store := { session.store with
          files := { session.store.files with
            snapshot := some (snapshotBytes session.store.options.formatVersion
              ⟨payload, session.store.lastSequence, session.store.generation + 1⟩)
            snapshotTmp := none, journalTmp := some (session.store.header.take k) } }
        writable := false }) := by
  unfold StoreSession.compact
  simp only [exec_bind, exec_get, StoreSession.exec_onStore, h.exec_checkCompaction hpayload,
    exec_modify, exec_throw]

/-- Where the journal is replaced, what remains of a compaction is the append of its base. -/
private theorem exec_based (h : Mirrors b recovery expected contents session log)
    (hpayload : payload.length ≤ b.maxSnapshotBytes.toNat) (short : Option Nat) :
    (StoreSession.compact (short.map .base) payload).exec session =
      (StoreSession.onStore (JournalStore.append short .snapshotBase
        (StoreSession.basePayload session.store.lastSequence (session.store.generation + 1)))).exec
          { session with
            store := session.store.emptied payload (session.store.generation + 1)
            writable := true } := by
  unfold StoreSession.compact
  cases short with
  | none =>
    simp only [Option.map_none, exec_bind, exec_get, StoreSession.exec_onStore,
      h.exec_install hpayload, exec_modify]
  | some k =>
    simp only [Option.map_some, exec_bind, exec_get, StoreSession.exec_onStore,
      h.exec_install hpayload, exec_modify]

private theorem exec_oversized (h : Mirrors b recovery expected contents session log)
    (hpayload : ¬ payload.length ≤ b.maxSnapshotBytes.toNat) (stop : Option CompactionStop) :
    (StoreSession.compact stop payload).exec session =
      (.error ⟨.oversizedInput, "snapshot exceeds the configured bound"⟩, session) := by
  unfold StoreSession.compact
  cases stop with
  | none =>
    simp only [exec_bind, exec_get, StoreSession.exec_onStore, h.exec_install_oversized hpayload]
  | some stop =>
    cases stop with
    | snapshot k =>
      simp only [exec_bind, exec_get, StoreSession.exec_onStore,
        h.exec_checkCompaction_oversized hpayload]
    | journal k =>
      simp only [exec_bind, exec_get, StoreSession.exec_onStore,
        h.exec_checkCompaction_oversized hpayload]
    | base k =>
      simp only [exec_bind, exec_get, StoreSession.exec_onStore, h.exec_install_oversized hpayload]

/-- The base record of a compaction, in full or in part, behind the replacement of the journal. -/
private theorem exec_base (h : Mirrors b recovery expected contents session log)
    (hb : b.Encodable) (hpayload : payload.length ≤ b.maxSnapshotBytes.toNat)
    (hsequence : session.store.lastSequence.toNat + 1 < 2 ^ 64) (short : Option Nat) :
    ∃ (base : Bytes) (generation : Gen), base.length = 24 ∧
      (StoreSession.compact (short.map .base) payload).exec session =
        match short with
        | none => (.ok (), { session with
            store := (session.store.emptied payload generation).advanced
              [(session.store.emptied payload generation).nextRecord .snapshotBase base]
            writable := true })
        | some k => (.error ⟨.storeUnavailable, "short write to store file"⟩, { session with
            store := (session.store.emptied payload generation).write
              (((session.store.emptied payload generation).nextRecord .snapshotBase base).bytes.take
                k)
            writable := true }) := by
  have hstore := h.exec_based hpayload short
  have hbase := h.emptied hpayload (session.store.generation + 1) []
  obtain ⟨hrecord, -⟩ := h.limits
  have hlength : (StoreSession.basePayload session.store.lastSequence
      (session.store.generation + 1)).length = 24 := by
    simp [StoreSession.basePayload]
  refine ⟨_, session.store.generation + 1, hlength, ?_⟩
  generalize StoreSession.basePayload session.store.lastSequence (session.store.generation + 1) =
    base at hstore hlength ⊢
  have hadmitted := hbase.admission_eq hsequence (show base.length ≤ _ by omega)
  rw [hlength, h.base_admitted hb] at hadmitted
  rw [StoreSession.exec_onStore, JournalStore.exec_append, hadmitted] at hstore
  rw [hstore]
  cases short with
  | none => rfl
  | some k => rfl

/-- The room of a base record. -/
private theorem base_room (h : Mirrors b recovery expected contents session log) {base : Bytes}
    (hlength : base.length = 24) : base.length ≤ b.maxRecordBytes.toNat ∧
      headerSize + (base.length + 24) ≤ b.maxJournalBytes.toNat * 2 := by
  obtain ⟨hrecord, hjournal⟩ := h.limits
  simp only [headerSize]
  omega

/-- A compaction that is stopped inside its base record leaves a journal without records behind
the snapshot. -/
theorem torn_base (h : Mirrors b recovery expected contents session log) (hb : b.Encodable)
    (hpayload : payload.length ≤ b.maxSnapshotBytes.toNat) {k : Nat}
    (hregular : (StoreCall.compact (some (.base k)) payload).Regular session) :
    ∃ (tail : Bytes) (generation : Gen), Mirrors b recovery expected
      ⟨[], tail, session.store.lastSequence, generation⟩
      ((StoreSession.compact (some (.base k)) payload).exec session).2
      { log with snapshot := some payload, records := [], bytes := 64, writable := true,
                 faults := [] } := by
  obtain ⟨-, hsequence, hinside⟩ := hregular
  obtain ⟨base, generation, hlength, hexec⟩ := h.exec_base hb hpayload hsequence (some k)
  obtain ⟨hbound, hroom⟩ := h.base_room hlength
  have hshort : k < recordHeaderSize + base.length + recordTrailerSize := by
    rw [hlength]
    exact hinside _ rfl
  rw [Option.map_some] at hexec
  rw [hexec]
  exact ⟨_, generation, (h.emptied hpayload generation []).torn hb rfl hshort hbound hroom []⟩

/-- The base of a compaction, in full or in part. -/
private theorem base_agree (h : Mirrors b recovery expected contents session log)
    (hb : b.Encodable) (hpayload : payload.length ≤ b.maxSnapshotBytes.toNat)
    {stop : Option CompactionStop} (short : Option Nat) (hstop : stop = short.map .base)
    (hregular : (StoreCall.compact stop payload).Regular session) :
    Agree (Mirrored b recovery expected) (StoreSession.compact stop payload)
      (Log.compact b payload) session
      { log with faults := [(StoreCall.compact stop payload).fault] } := by
  obtain ⟨-, hsequence, hinside⟩ := hregular
  have hlog := Log.exec_compact (StoreCall.compact stop payload).fault log hpayload
    (h.base_admitted hb)
  subst hstop
  obtain ⟨base, generation, hlength, hstore⟩ := h.exec_base hb hpayload hsequence short
  obtain ⟨hbound, hroom⟩ := h.base_room hlength
  have hbase := h.emptied hpayload generation []
  cases short with
  | none =>
    have hmirrors := hbase.appended .snapshotBase rfl hsequence hbound hroom []
    rw [hlength] at hmirrors
    exact .of_exec hstore hlog ⟨_, hmirrors⟩
  | some k =>
    have hshort : k < recordHeaderSize + base.length + recordTrailerSize := by
      rw [hlength]
      exact hinside _ rfl
    exact .of_exec hstore hlog ⟨_, hbase.torn hb rfl hshort hbound hroom []⟩

/-- **A compaction** that is made where the log speaks for the store. -/
theorem compact (h : Mirrors b recovery expected contents session log) (hb : b.Encodable)
    {stop : Option CompactionStop} (hregular : (StoreCall.compact stop payload).Regular session) :
    Agree (Mirrored b recovery expected) (StoreCall.compact stop payload).onStore
      ((StoreCall.compact stop payload).onLog b) session log := by
  refine Agree.prepared (Agree.map ?_ none)
  by_cases hpayload : payload.length ≤ b.maxSnapshotBytes.toNat
  · have hlog := Log.exec_compact (StoreCall.compact stop payload).fault log hpayload
      (h.base_admitted hb)
    cases stop with
    | none => exact h.base_agree hb hpayload none rfl hregular
    | some stop =>
      cases stop with
      | snapshot k =>
        obtain ⟨tmp, hstore⟩ := h.exec_stopped hpayload k
        have hsound : (session.store).Sound := h.sound
        exact .of_exec hstore hlog
          ⟨contents, { h with sound := ⟨hsound.usable, hsound.identity, hsound.expected⟩ }⟩
      | journal k => exact .of_exec (h.exec_closed hpayload k) hlog ⟨_, h.closed hpayload _ _ _⟩
      | base k => exact h.base_agree hb hpayload (some k) rfl hregular
  · exact .of_exec (h.exec_oversized hpayload stop) (Log.exec_compact_oversized _ hpayload)
      ⟨contents, { h with }⟩

end Mirrors

/-! ## Openings -/

/-- What the opening of a log comes to where the file system does what it is asked. -/
theorem Log.exec_reopen (log : Log)
    (husable : 256 ≤ b.maxRecordBytes ∧ b.maxRecordBytes ≤ b.maxJournalBytes ∧
      b.maxRecordBytes ≤ b.maxSnapshotBytes)
    (hlimit : log.bytes ≤ (b.maxJournalBytes * 2 + b.maxRecordBytes * 4).toNat)
    (hfits : ∀ payload ∈ log.snapshot, payload.length < 2 ^ 32) :
    (Log.reopen b).exec { log with faults := [.none] } =
      if ∀ payload ∈ log.snapshot, payload.length + 36 ≤ b.maxSnapshotBytes.toNat then
        (.ok (), { log with writable := true, faults := [] })
      else (.error ⟨.oversizedInput, "store file exceeds the configured size bound"⟩,
        { log with faults := [] }) := by
  unfold Log.reopen Log.takeFault
  simp only [exec_bind, exec_get, exec_check, if_pos husable, exec_set, exec_pure, if_true,
    if_pos hlimit]
  by_cases hsnapshot : ∀ payload ∈ log.snapshot, payload.length + 36 ≤ b.maxSnapshotBytes.toNat
  · simp only [if_pos hsnapshot, if_pos hfits, exec_modify]
  · simp only [if_neg hsnapshot]

/-- A replay that collects what it is shown. -/
theorem StoreSession.exec_collect (covered : UInt64) (rs : List JournalRecord)
    (shown : List (RecordType × Bytes)) (gone : List Bytes) :
    ∃ gone', (goThroughAll (Shown covered) collect rs).exec ⟨shown, gone⟩ =
      (.ok (), ⟨shown ++ shownRecords covered rs, gone'⟩) := by
  induction rs generalizing shown gone with
  | nil =>
    refine ⟨gone, ?_⟩
    rw [goThroughAll, shownRecords, List.filter_nil, List.map_nil, List.append_nil, exec_pure]
  | cons r rs ih =>
    by_cases hshown : Shown covered r
    · have hone : (goThrough (Shown covered) collect r).exec ⟨shown, gone⟩ =
          (.ok (), ⟨shown ++ [(r.type, r.payload)], gone ++ [r.bytes]⟩) := by
        rw [goThrough, if_pos hshown]
        rfl
      obtain ⟨gone', hlater⟩ := ih (shown ++ [(r.type, r.payload)]) (gone ++ [r.bytes])
      refine ⟨gone', ?_⟩
      rw [goThroughAll, exec_bind, hone]
      simp only [hlater]
      simp [shownRecords, hshown]
    · have hone : (goThrough (Shown covered) collect r).exec ⟨shown, gone⟩ =
          (.ok (), ⟨shown, gone ++ [r.bytes]⟩) := by
        rw [goThrough, if_neg hshown]
        rfl
      obtain ⟨gone', hlater⟩ := ih shown (gone ++ [r.bytes])
      refine ⟨gone', ?_⟩
      rw [goThroughAll, exec_bind, hone]
      simp only [hlater]
      simp [shownRecords, hshown]

namespace Mirrors

/-- What the installed snapshot covers, as an opening reads it. -/
theorem coveredBy_eq (h : Mirrors b recovery expected contents session log) :
    coveredBy session.store.files.snapshot = contents.covered := by
  rw [h.snapshot]
  cases hsnapshot : log.snapshot with
  | none => exact (h.uncovered hsnapshot).symm
  | some payload =>
    unfold coveredBy
    simp only [Option.map_some, snapshotOf_snapshotBytes, Option.getD_some]

/-- The limit of the readers does not wrap. -/
theorem readLimit_eq (h : Mirrors b recovery expected contents session log) (hb : b.Encodable) :
    (readLimit session.store.options).toNat =
        b.maxJournalBytes.toNat * 2 + b.maxRecordBytes.toNat * 4 ∧
      (b.maxJournalBytes * 2 + b.maxRecordBytes * 4).toNat =
        b.maxJournalBytes.toNat * 2 + b.maxRecordBytes.toNat * 4 := by
  have hwide := hb.journal
  have hlimit : (b.maxJournalBytes * 2 + b.maxRecordBytes * 4).toNat =
      b.maxJournalBytes.toNat * 2 + b.maxRecordBytes.toNat * 4 := by
    rw [UInt64.toNat_add, UInt64.toNat_mul, UInt64.toNat_mul]
    change (b.maxJournalBytes.toNat * 2 % 2 ^ 64 + b.maxRecordBytes.toNat * 4 % 2 ^ 64) % 2 ^ 64 = _
    omega
  refine ⟨?_, hlimit⟩
  rw [h.options]
  exact hlimit

/-- The store a new process opens over the files. -/
theorem reopened (h : Mirrors b recovery expected contents session log)
    (hrecords : contents.records = [] → contents.covered = 0) (outcome : ScanOutcome)
    (houtcome : outcome.lastSequence = lastOf 0 contents.records) (faults : List Fault) :
    Mirrors b recovery expected { contents with tail := [] }
      { store := session.store.recovered recovery session.store.files outcome
          (session.store.header ++ recordBytes contents.records) }
      { log with writable := true, faults } := by
  have hcovers : contents.covered ≤ outcome.lastSequence := by
    rw [houtcome]
    have hlast := h.last
    cases hcontents : contents.records with
    | nil =>
      rw [hrecords hcontents]
      exact UInt64.zero_le
    | cons r rs =>
      rw [hcontents] at hlast
      exact h.covers.trans_eq hlast.symm
  exact { h with
    sound := ⟨h.sound.usable, h.sound.identity, h.sound.expected⟩
    options := by
      show session.store.options.withRecovery recovery = _
      rw [h.options]
      rfl
    opened := rfl
    journal := by
      show some _ = some (_ ++ (_ ++ []))
      rw [List.append_nil]
      rfl
    tail := .inl rfl
    bytes := by
      show (session.store.header ++ recordBytes contents.records).length = _
      rw [List.length_append, h.sound.length_header]
    room := by
      have hroom := h.room
      rw [h.file, List.length_append, List.length_append] at hroom
      show (session.store.header ++ recordBytes contents.records).length ≤ _
      rw [List.length_append]
      omega
    last := by
      show lastOf outcome.lastSequence contents.records = outcome.lastSequence
      rw [houtcome]
      cases contents.records with
      | nil => rfl
      | cons r rs => rfl
    covers := hcovers
    installed := by
      show coveredBy session.store.files.snapshot ≤ outcome.lastSequence
      rw [h.coveredBy_eq]
      exact hcovers
    counted := by
      show log.bytes = (session.store.header ++ recordBytes contents.records).length
      rw [List.length_append, h.sound.length_header, h.counted, h.bytes]
    writable := rfl }

/-- An opened store shows the snapshot and the records of its log. -/
theorem recovery_reopened (h : Mirrors b recovery expected contents session log)
    (hb : b.Encodable) (outcome : ScanOutcome) :
    StoreSession.recovery (session.store.recovered recovery session.store.files outcome
      (session.store.header ++ recordBytes contents.records)) = (log.snapshot, .ok log.records) := by
  have hlimit : (session.store.header ++ recordBytes contents.records).length ≤
      (readLimit session.store.options).toNat := by
    have hroom := h.room
    rw [h.file, List.length_append, List.length_append] at hroom
    rw [(h.readLimit_eq hb).1, List.length_append]
    omega
  have hreplay : (session.store.recovered recovery session.store.files outcome
      (session.store.header ++ recordBytes contents.records)).replay StoreSession.collect = _ :=
    replay_recovered h.sound (h.sized hb) hlimit
  obtain ⟨gone, hshown⟩ := StoreSession.exec_collect contents.covered contents.records [] []
  unfold StoreSession.recovery
  rw [hreplay, h.coveredBy_eq, hshown]
  have hsnapshot : (session.store.recovered recovery session.store.files outcome
      (session.store.header ++ recordBytes contents.records)).snapshot.map (·.payload) =
        log.snapshot := by
    show (session.store.files.snapshot.map snapshotOf).map (·.payload) = _
    rw [h.snapshot]
    cases log.snapshot with
    | none => rfl
    | some payload =>
      simp only [Option.map_some, snapshotOf_snapshotBytes]
  rw [hsnapshot, h.records]
  rfl

/-- The options of a store are those it is opened with again. -/
private theorem withRecovery_eq (h : Mirrors b recovery expected contents session log) :
    session.store.options.withRecovery recovery = session.store.options := by
  rw [h.options]
  rfl

private theorem exec_reopen (h : Mirrors b recovery expected contents session log)
    (hb : b.Encodable) {now : UInt64} {generated : StoreId}
    (hregular : (StoreCall.reopen now generated).Regular session)
    (hsnapshot : ∀ payload ∈ log.snapshot, payload.length + 36 ≤ b.maxSnapshotBytes.toNat) :
    ∃ outcome : ScanOutcome, outcome.lastSequence = lastOf 0 contents.records ∧
      (StoreCall.reopen now generated).onStore.exec session =
        (.ok (some (log.snapshot, .ok log.records)),
          { store := session.store.recovered recovery session.store.files outcome
              (session.store.header ++ recordBytes contents.records) }) := by
  obtain ⟨hrefuse, -⟩ := hregular
  have hscan := cutScan_tail h.ascending (h.sized hb) h.tail
  have hallowed : contents.tail = [] ∨ recovery ≠ .refuse := by
    by_cases hpolicy : recovery = .refuse
    · have hoptions : session.store.options.recovery = .refuse := by
        rw [h.options]
        exact hpolicy
      exact .inl (h.tail_nil (hrefuse hoptions))
    · exact .inr hpolicy
  have hkept := kept_of_truncates recovery hscan h.sound.length_header hallowed
  have hmax : session.store.options.maxRecordBytes = b.maxRecordBytes := by
    rw [h.options]
    rfl
  have hversion : session.store.options.formatVersion = 1 := by
    rw [h.options]
    rfl
  have hlimit : (session.store.header ++ (recordBytes contents.records ++ contents.tail)).length ≤
      (readLimit session.store.options).toNat := by
    have hroom := h.room
    rw [h.file] at hroom
    rw [(h.readLimit_eq hb).1]
    omega
  have hreadable : SnapshotReadable (session.store.options.withRecovery recovery)
      session.store.files.snapshot := by
    rw [h.withRecovery_eq, h.snapshot, h.options]
    intro data hdata
    obtain ⟨payload, hpayload, rfl⟩ := Option.mem_map.mp hdata
    have hbound := hsnapshot payload hpayload
    have hfits := (h.bounded payload hpayload).trans_lt hb.snapshot
    have hroom : snapshotHeaderSize + payload.length ≤ b.maxSnapshotBytes.toNat := by
      simp only [snapshotHeaderSize]
      omega
    have hread : (readSnapshotFile (storeOptions b recovery expected)
        (snapshotBytes 1 ⟨payload, contents.covered, contents.generation⟩)).exec
          { files := {} } = (.ok _, { files := {} }) :=
      readSnapshotFile_snapshotBytes (show (1 : UInt32).toNat < 2 ^ 16 by decide) hfits hroom
    exact ⟨{ files := {} }, by rw [hread]; rfl⟩
  have hopen : ∃ o, session.store.reopen recovery session.store.files now generated {} =
      (.ok (session.store.recovered recovery session.store.files
        (scanRest b.maxRecordBytes {} (recordBytes contents.records ++ contents.tail))
        (session.store.header ++ recordBytes contents.records)), o) := by
    refine (reopen_iff h.sound h.journal).mpr
      ⟨?_, hlimit, hreadable, session.store.header ++ recordBytes contents.records, ?_, ?_⟩
    · rw [hversion]
      decide
    · rw [hmax]
      exact hkept
    · rw [hmax]
  obtain ⟨o, hopen⟩ := hopen
  unfold JournalStore.reopen at hopen
  rw [h.withRecovery_eq] at hopen
  refine ⟨scanRest b.maxRecordBytes {} (recordBytes contents.records ++ contents.tail),
    hscan.lastSequence, ?_⟩
  unfold StoreCall.onStore StoreSession.reopen
  rw [exec_map, exec_bind, exec_get]
  simp only [hopen, exec_bind, exec_set, exec_pure, h.recovery_reopened hb]
  rfl

/-- A snapshot file past the bound of the reader is not opened again. -/
private theorem exec_reopen_oversized (h : Mirrors b recovery expected contents session log)
    (hb : b.Encodable) {now : UInt64} {generated : StoreId}
    (hsnapshot : ¬ ∀ payload ∈ log.snapshot, payload.length + 36 ≤ b.maxSnapshotBytes.toNat) :
    ∃ files : StoreFiles, files.journal = session.store.files.journal ∧
      files.snapshot = session.store.files.snapshot ∧
      (StoreCall.reopen now generated).onStore.exec session =
        (.error ⟨.oversizedInput, "store file exceeds the configured size bound"⟩,
          { session with store := { session.store with files }, present := false }) := by
  have hversion : session.store.options.formatVersion = 1 := by
    rw [h.options]
    rfl
  have hlimit : (session.store.header ++ (recordBytes contents.records ++ contents.tail)).length ≤
      (readLimit session.store.options).toNat := by
    have hroom := h.room
    rw [h.file] at hroom
    rw [(h.readLimit_eq hb).1]
    omega
  refine ⟨{ session.store.files with journalTmp := none, snapshotTmp := none }, rfl, rfl, ?_⟩
  have hheader : (readHeader session.store.options
      (session.store.header ++ (recordBytes contents.records ++ contents.tail))).exec
        ⟨{ session.store.files with journalTmp := none, snapshotTmp := none }, {}⟩ = (.ok _, _) :=
    readHeader_header h.sound.identity h.sound.expected rfl (by rw [hversion]; decide) hlimit
  have hopen : session.store.reopen recovery session.store.files now generated {} = _ :=
    reopen_eq h.sound h.journal
  unfold JournalStore.reopen at hopen
  rw [h.withRecovery_eq, recoverStore, exec_bind, hheader] at hopen
  cases hinstalled : log.snapshot with
  | none => exact absurd (fun payload hpayload ↦ by simp [hinstalled] at hpayload) hsnapshot
  | some payload =>
    have hfile := h.snapshot
    rw [hinstalled, Option.map_some] at hfile
    have hlong : ¬ (snapshotBytes 1 ⟨payload, contents.covered, contents.generation⟩).length ≤
        session.store.options.maxSnapshotBytes.toNat := by
      intro hle
      rw [length_snapshotBytes, h.options] at hle
      apply hsnapshot
      intro payload' hpayload'
      rw [hinstalled] at hpayload'
      cases hpayload'
      simp only [snapshotHeaderSize] at hle
      change 36 + payload.length ≤ b.maxSnapshotBytes.toNat at hle
      omega
    have hread (o : Opening) : (readSnapshot session.store.options
        session.store.files.snapshot).exec o = _ := hfile ▸ readSnapshot_oversized hlong o
    simp only [exec_bind, exec_get, hread] at hopen
    unfold StoreCall.onStore StoreSession.reopen
    rw [exec_map, exec_bind, exec_get]
    simp only [hopen, exec_bind, exec_set, exec_throw]
    rfl

/-- **An opening** that is made where the log speaks for the store. -/
theorem reopen (h : Mirrors b recovery expected contents session log) (hb : b.Encodable)
    {now : UInt64} {generated : StoreId}
    (hregular : (StoreCall.reopen now generated).Regular session) :
    Agree (Mirrored b recovery expected) (StoreCall.reopen now generated).onStore
      ((StoreCall.reopen now generated).onLog b) session log := by
  have husable := h.sound.usable
  rw [h.options] at husable
  have hlimit : log.bytes ≤ (b.maxJournalBytes * 2 + b.maxRecordBytes * 4).toNat := by
    have hroom := h.room
    have hlength : session.store.bytes ≤ session.store.file.length := by
      rw [h.file, h.bytes, List.length_append, List.length_append, h.sound.length_header]
      omega
    rw [(h.readLimit_eq hb).2, h.counted]
    omega
  have hfits : ∀ payload ∈ log.snapshot, payload.length < 2 ^ 32 := fun payload hpayload ↦
    (h.bounded payload hpayload).trans_lt hb.snapshot
  have hlog : (Log.reopen b).exec
      { log with faults := [(StoreCall.reopen now generated).fault] } = _ :=
    Log.exec_reopen log husable hlimit hfits
  refine Agree.prepared ?_
  by_cases hsnapshot : ∀ payload ∈ log.snapshot, payload.length + 36 ≤ b.maxSnapshotBytes.toNat
  · rw [if_pos hsnapshot] at hlog
    obtain ⟨outcome, houtcome, hstore⟩ := h.exec_reopen hb hregular hsnapshot
    have hrecords : contents.records = [] → contents.covered = 0 := by
      intro hnil
      rw [← h.coveredBy_eq]
      apply hregular.2
      rw [h.bytes, hnil]
      rfl
    have hend := h.reopened hrecords outcome houtcome []
    refine .of_exec hstore ?_ ⟨_, hend⟩
    rw [exec_bind, hlog]
    rfl
  · rw [if_neg hsnapshot] at hlog
    obtain ⟨files, hjournal, hinstalled, hstore⟩ :=
      @exec_reopen_oversized _ _ _ _ _ _ h hb now generated hsnapshot
    have hfile : ({ session.store with files } : JournalStore).file = session.store.file :=
      congrArg (Option.getD · []) hjournal
    have hend : Mirrors b recovery expected contents
        { session with store := { session.store with files }, present := false }
        { log with faults := [] } :=
      { h with
        sound := ⟨h.sound.usable, h.sound.identity, h.sound.expected⟩
        journal := hjournal.trans h.journal
        room := hfile ▸ h.room
        snapshot := hinstalled.trans h.snapshot }
    refine .of_exec hstore ?_ ⟨_, hend⟩
    rw [exec_bind, hlog]

end Mirrors

end OffloadFabric
