import OffloadFabric.Journal.Cut

/-!
# Opening a store again

What `JournalStore::open` makes of the files a store left: the header is the one the store wrote,
the snapshot file is judged by itself, and the rest of the journal is what its scan finds.
-/

namespace OffloadFabric

open Lib Lib.Fallible

namespace Journal

/-! ## Reported checks -/

section Checks

variable {α β : Type} {classification : RecoveryClassification} {e : Error} {o o' : Opening}

/-- A demand that is met changes nothing. -/
theorem exec_demand_bind {p : Prop} [Decidable p] (h : p) (f : Unit → Fallible Opening Error β) :
    (demand p classification e >>= f).exec o = (f ()).exec o := by
  rw [demand, if_pos h]
  rfl

theorem exec_demand_bind_ok {p : Prop} [Decidable p] {f : Unit → Fallible Opening Error β} {b : β}
    (h : (demand p classification e >>= f).exec o = (.ok b, o')) :
    p ∧ (f ()).exec o = (.ok b, o') := by
  by_cases hp : p
  · rw [exec_demand_bind hp] at h
    exact ⟨hp, h⟩
  · rw [demand, if_neg hp] at h
    cases h

theorem exec_reported_bind {result : Result α} {a : α} (h : result = .ok a)
    (f : α → Fallible Opening Error β) : (reported result >>= f).exec o = (f a).exec o := by
  rw [h]
  rfl

theorem exec_reported_bind_ok {result : Result α} {f : α → Fallible Opening Error β} {b : β}
    (h : (reported result >>= f).exec o = (.ok b, o')) :
    ∃ a, result = .ok a ∧ (f a).exec o = (.ok b, o') := by
  cases result with
  | error => cases h
  | ok a => exact ⟨a, rfl, h⟩

theorem readFile_ok {data data' : Bytes} {limit : UInt64} :
    readFile data limit = .ok data' ↔ data.length ≤ limit.toNat ∧ data' = data := by
  unfold readFile
  split
  · next h =>
    simp only [h, true_and, Except.ok.injEq]
    exact eq_comm
  · next h => simp [h]

end Checks

/-! ## The header -/

variable {options : StoreOpenOptions} {storeId : StoreId} {createdAt : UInt64}
  {formatVersion : UInt32} {o o' : Opening} {body file : Bytes}

@[simp] theorem length_headerFields (h : storeId.value.length = 32) :
    (headerFields storeId createdAt formatVersion).length = 56 := by
  simp [headerFields, h]

theorem buildHeader_eq (h : storeId.value.length = 32) :
    buildHeader storeId createdAt formatVersion =
      headerFields storeId createdAt formatVersion ++
        (le 4 (crc32c (headerFields storeId createdAt formatVersion)).toNat ++ le 4 0) := by
  simp [buildHeader, h]

@[simp] theorem length_buildHeader (h : storeId.value.length = 32) :
    (buildHeader storeId createdAt formatVersion).length = headerSize := by
  rw [buildHeader_eq h, List.length_append, length_headerFields h]
  simp [headerSize]

/-- The fields of a journal that begins with a header. -/
structure HeaderOf (storeId : StoreId) (createdAt : UInt64) (formatVersion : UInt32)
    (data : Bytes) : Prop where
  long : headerSize ≤ data.length
  magic : field 4 0 data = Journal.magic
  version : field 2 4 data = formatVersion.toNat % 2 ^ 16
  canonical : field 2 6 data = Wire.canonicalEncodingVersion.toNat
  size : field 4 8 data = headerSize
  sum : field 4 56 data = (crc32c (data.take 56)).toNat
  identity : (data.drop 16).take 32 = storeId.value
  created : field 8 48 data = createdAt.toNat

theorem headerOf_buildHeader (h : storeId.value.length = 32) (body : Bytes) :
    HeaderOf storeId createdAt formatVersion
      (buildHeader storeId createdAt formatVersion ++ body) := by
  have hcrc := (crc32c (headerFields storeId createdAt formatVersion)).toNat_lt
  have hbytes : buildHeader storeId createdAt formatVersion ++ body =
      le 4 Journal.magic ++ (le 2 formatVersion.toNat ++
        (le 2 Wire.canonicalEncodingVersion.toNat ++ (le 4 headerSize ++ (le 4 0 ++
          (storeId.value ++ (le 8 createdAt.toNat ++
            (le 4 (crc32c (headerFields storeId createdAt formatVersion)).toNat ++
              (le 4 0 ++ body)))))))) := by
    rw [buildHeader_eq h]
    simp [headerFields]
  have hfields : (buildHeader storeId createdAt formatVersion ++ body).take 56 =
      headerFields storeId createdAt formatVersion := by
    rw [buildHeader_eq h, List.append_assoc, ← length_headerFields h, List.take_left]
  refine ⟨?_, ?_, ?_, ?_, ?_, ?_, ?_, ?_⟩
  · simp [h]
  · rw [hbytes, field_zero_le]
    rfl
  · rw [hbytes]
    simp (disch := omega) only [field_skip, Nat.reduceSub, field_zero_le]
    rfl
  · rw [hbytes]
    simp (disch := omega) only [field_skip, Nat.reduceSub, field_zero_le]
    rfl
  · rw [hbytes]
    simp (disch := omega) only [field_skip, Nat.reduceSub, field_zero_le]
    rfl
  · rw [hfields, hbytes]
    simp (disch := omega) only [field_skip, Nat.reduceSub]
    rw [field_behind _ (by omega), h]
    simp (disch := omega) only [field_skip, Nat.reduceSub, field_zero_le]
    exact Nat.mod_eq_of_lt hcrc
  · rw [hbytes]
    have hdrop (n v : Nat) (s : Bytes) {k : Nat} (hk : n ≤ k) :
        (le n v ++ s).drop k = s.drop (k - n) := by
      have hle : (le n v).length ≤ k := by rwa [length_le]
      rw [List.drop_append, List.drop_of_length_le hle, length_le, List.nil_append]
    simp (disch := omega) only [hdrop, Nat.reduceSub, List.drop_zero]
    rw [← h, List.take_left]
  · rw [hbytes]
    simp (disch := omega) only [field_skip, Nat.reduceSub]
    rw [field_behind _ (by omega), h]
    simp only [Nat.reduceSub, field_zero_le]
    exact Nat.mod_eq_of_lt createdAt.toNat_lt

/-- The identity of a header is read back. -/
theorem parse_identity (h : storeId.value.length = 32) :
    (Token.parse storeId.value : Result StoreId) = .ok storeId := by
  have hvalid : isValidToken storeId.value = true := by
    rcases storeId.canonical with hempty | hvalid
    · simp [hempty] at h
    · exact hvalid
  simp [Token.parse, hvalid]

/-- **The header of a store is read back** under its own options. -/
theorem readHeader_header (hid : storeId.value.length = 32)
    (hexpected : options.expectedStoreId.isSet → options.expectedStoreId = storeId)
    (hfile : file = buildHeader storeId createdAt options.formatVersion ++ body)
    (hversion : options.formatVersion.toNat < 2 ^ 16)
    (hlimit : file.length ≤ (readLimit options).toNat) :
    (readHeader options file).exec o = (.ok (storeId, createdAt), o) := by
  have hheader : HeaderOf storeId createdAt options.formatVersion file :=
    hfile ▸ headerOf_buildHeader hid body
  have hread : readFile file (readLimit options) = .ok file := readFile_ok.mpr ⟨hlimit, rfl⟩
  have hcreated : (.ofNat (field 8 48 file) : UInt64) = createdAt := by
    rw [hheader.created, UInt64.ofNat_toNat]
  have hversion' : field 2 4 file = options.formatVersion.toNat := by
    rw [hheader.version, Nat.mod_eq_of_lt hversion]
  have hparse : (Token.parse ((file.drop 16).take 32) : Result StoreId) = .ok storeId := by
    rw [hheader.identity, parse_identity hid]
  rw [readHeader, exec_reported_bind hread, exec_demand_bind hheader.long,
    exec_demand_bind hheader.magic, exec_demand_bind hversion', exec_demand_bind hheader.canonical,
    exec_demand_bind hheader.size, exec_demand_bind hheader.sum, exec_reported_bind hparse,
    exec_demand_bind hexpected, hcreated, exec_pure]

/-- What reading the header of a store takes. -/
theorem readHeader_ok {found : StoreId × UInt64} (hid : storeId.value.length = 32)
    (hfile : file = buildHeader storeId createdAt options.formatVersion ++ body)
    (h : (readHeader options file).exec o = (.ok found, o')) :
    options.formatVersion.toNat < 2 ^ 16 ∧ file.length ≤ (readLimit options).toNat ∧ o' = o := by
  have hheader : HeaderOf storeId createdAt options.formatVersion file :=
    hfile ▸ headerOf_buildHeader hid body
  obtain ⟨data, hread, h⟩ := exec_reported_bind_ok h
  obtain ⟨hlimit, hsame⟩ := readFile_ok.mp hread
  obtain ⟨-, h⟩ := exec_demand_bind_ok h
  obtain ⟨-, h⟩ := exec_demand_bind_ok h
  obtain ⟨hversion, h⟩ := exec_demand_bind_ok h
  obtain ⟨-, h⟩ := exec_demand_bind_ok h
  obtain ⟨-, h⟩ := exec_demand_bind_ok h
  obtain ⟨-, h⟩ := exec_demand_bind_ok h
  obtain ⟨_, -, h⟩ := exec_reported_bind_ok h
  obtain ⟨-, h⟩ := exec_demand_bind_ok h
  cases h
  refine ⟨?_, hlimit, rfl⟩
  rw [← hversion, hsame, hheader.version]
  exact Nat.mod_lt _ (by decide)

/-! ## The snapshot file -/

/-- The snapshot a file holds. -/
def snapshotOf (file : Bytes) : StoreSnapshot :=
  ⟨file.drop snapshotHeaderSize, .ofNat (field 8 16 file), .ofNat (field 8 24 file)⟩

/-- The snapshot file, if there is one, passes what `open` checks of it. -/
def SnapshotReadable (options : StoreOpenOptions) (file : Option Bytes) : Prop :=
  ∀ data ∈ file, ∃ o, ((readSnapshotFile options data).exec o).1.isOk

theorem readSnapshotFile_ok {data : Bytes} {snapshot : StoreSnapshot} {o o' : Opening}
    (h : (readSnapshotFile options data).exec o = (.ok snapshot, o')) :
    o' = o ∧ snapshot = snapshotOf data ∧
      ∀ u, (readSnapshotFile options data).exec u = (.ok snapshot, u) := by
  obtain ⟨data', hread, h⟩ := exec_reported_bind_ok h
  obtain ⟨hmagic, h⟩ := exec_demand_bind_ok h
  obtain ⟨hversion, h⟩ := exec_demand_bind_ok h
  obtain ⟨hbound, h⟩ := exec_demand_bind_ok h
  obtain ⟨hheader, h⟩ := exec_demand_bind_ok h
  obtain ⟨hsize, h⟩ := exec_demand_bind_ok h
  obtain ⟨hsum, h⟩ := exec_demand_bind_ok h
  cases h
  have hsame : data' = data := (readFile_ok.mp hread).2
  refine ⟨rfl, by rw [hsame]; rfl, fun u ↦ ?_⟩
  rw [readSnapshotFile, exec_reported_bind hread, exec_demand_bind hmagic,
    exec_demand_bind hversion, exec_demand_bind hbound, exec_demand_bind hheader,
    exec_demand_bind hsize, exec_demand_bind hsum, exec_pure]

theorem readSnapshot_readable {file : Option Bytes} (h : SnapshotReadable options file) :
    (readSnapshot options file).exec o = (.ok (file.map snapshotOf), o) := by
  cases file with
  | none => rfl
  | some data =>
    obtain ⟨u, hu⟩ := h data rfl
    cases hexec : (readSnapshotFile options data).exec u with
    | mk result u' =>
      rw [hexec] at hu
      cases result with
      | error => cases hu
      | ok snapshot =>
        obtain ⟨-, rfl, hall⟩ := readSnapshotFile_ok hexec
        rw [readSnapshot, exec_map, hall o]
        rfl

theorem readSnapshot_ok {file : Option Bytes} {snapshot : Option StoreSnapshot}
    (h : (readSnapshot options file).exec o = (.ok snapshot, o')) :
    SnapshotReadable options file ∧ snapshot = file.map snapshotOf ∧ o' = o := by
  cases file with
  | none =>
    cases h
    exact ⟨fun data hdata ↦ by simp at hdata, rfl, rfl⟩
  | some data =>
    rw [readSnapshot, exec_map] at h
    cases hexec : (readSnapshotFile options data).exec o with
    | mk result u =>
      rw [hexec] at h
      cases result with
      | error => cases h
      | ok found =>
        cases h
        obtain ⟨rfl, rfl, -⟩ := readSnapshotFile_ok hexec
        refine ⟨?_, rfl, rfl⟩
        intro data' hdata'
        cases hdata'
        exact ⟨_, by rw [hexec]; rfl⟩

/-! ## The tail -/

variable {outcome : ScanOutcome}

/-- The bytes of a journal an opening keeps, if it goes on. -/
def keptBytes (recovery : RecoveryPolicy) (outcome : ScanOutcome) (file : Bytes) : Option Bytes :=
  if outcome.torn ∨ outcome.damaged then
    if tailTruncationAllowed recovery outcome then some (file.take outcome.lastGoodOffset)
    else none
  else some file

theorem recoverTail_some (options : StoreOpenOptions) {kept : Bytes}
    (hjournal : o.files.journal = some file)
    (h : keptBytes options.recovery outcome file = some kept) :
    ∃ report, (recoverTail options file outcome).exec o =
      (.ok kept, ⟨{ o.files with journal := some kept }, report⟩) := by
  unfold keptBytes at h
  unfold recoverTail
  by_cases hbroken : outcome.torn = true ∨ outcome.damaged = true
  · rw [if_pos hbroken] at h
    split at h
    · next hallowed =>
      cases h
      rw [if_pos hbroken, exec_demand_bind hallowed]
      exact ⟨_, rfl⟩
    · cases h
  · rw [if_neg hbroken] at h
    cases h
    rw [if_neg hbroken, ← hjournal]
    exact ⟨_, rfl⟩

theorem recoverTail_none (options : StoreOpenOptions)
    (h : keptBytes options.recovery outcome file = none) :
    ∃ e o', (recoverTail options file outcome).exec o = (.error e, o') := by
  unfold keptBytes at h
  unfold recoverTail
  split at h
  · next hbroken =>
    split at h
    · cases h
    · next hrefused =>
      rw [if_pos hbroken, demand, if_neg hrefused]
      exact ⟨_, _, rfl⟩
  · cases h

/-- A scan behind a header. -/
theorem scanRecords_header (hid : storeId.value.length = 32) (body : Bytes)
    (maxRecordBytes : UInt64) :
    scanRecords (buildHeader storeId createdAt formatVersion ++ body) maxRecordBytes =
      scanRest maxRecordBytes {} body := by
  have hdrop : (buildHeader storeId createdAt formatVersion ++ body).drop headerSize = body := by
    have hlen : (buildHeader storeId createdAt formatVersion).length = headerSize :=
      length_buildHeader hid
    rw [← hlen, List.drop_left]
  rw [scanRecords, hdrop]
  exact scanFrom_eq_scanRest _ (by simp)

end Journal

namespace StoreOpenOptions

/-- The options under another recovery policy. -/
def withRecovery (options : StoreOpenOptions) (recovery : RecoveryPolicy) : StoreOpenOptions :=
  { options with recovery }

variable (options : StoreOpenOptions) (recovery : RecoveryPolicy)

@[simp] theorem recovery_withRecovery : (options.withRecovery recovery).recovery = recovery := rfl

@[simp] theorem maxRecordBytes_withRecovery :
    (options.withRecovery recovery).maxRecordBytes = options.maxRecordBytes := rfl

@[simp] theorem formatVersion_withRecovery :
    (options.withRecovery recovery).formatVersion = options.formatVersion := rfl

@[simp] theorem readLimit_withRecovery :
    Journal.readLimit (options.withRecovery recovery) = Journal.readLimit options := rfl

end StoreOpenOptions

namespace JournalStore

open Journal

variable {options : StoreOpenOptions} {storeId : StoreId} {createdAt : UInt64} {o : Opening}
  {s t : JournalStore} {policy : RecoveryPolicy} {files : StoreFiles} {now : UInt64}
  {generated : StoreId} {report : RecoveryReport} {body file kept : Bytes}

/-- The header of the journals the store writes. -/
def header (s : JournalStore) : Bytes := buildHeader s.storeId s.createdAt s.options.formatVersion

/-- What every open store satisfies: usable bounds and an identity of the right length, the
expected one if there is one. -/
structure Sound (s : JournalStore) : Prop where
  usable : s.options.Usable
  identity : s.storeId.value.length = 32
  expected : s.options.expectedStoreId.isSet → s.options.expectedStoreId = s.storeId

theorem Sound.length_header (h : s.Sound) : s.header.length = headerSize :=
  length_buildHeader h.identity

/-- Open files under the options of a store with a recovery policy. -/
def reopen (s : JournalStore) (policy : RecoveryPolicy) (files : StoreFiles) (now : UInt64)
    (generated : StoreId) (report : RecoveryReport) : Except Error JournalStore × Opening :=
  (openStore (s.options.withRecovery policy) now generated).exec ⟨files, report⟩

/-- The store an opening returns over what it keeps of a journal. -/
def recovered (s : JournalStore) (policy : RecoveryPolicy) (files : StoreFiles)
    (outcome : ScanOutcome) (kept : Bytes) : JournalStore where
  files := { files with journal := some kept, journalTmp := none, snapshotTmp := none }
  options := s.options.withRecovery policy
  storeId := s.storeId
  createdAt := s.createdAt
  snapshot := files.snapshot.map snapshotOf
  lastSequence := outcome.lastSequence
  bytes := kept.length

theorem reopen_eq (h : s.Sound) (hfile : files.journal = some (s.header ++ body)) :
    s.reopen policy files now generated report =
      (recoverStore (s.options.withRecovery policy) (s.header ++ body)).exec
        ⟨{ files with journalTmp := none, snapshotTmp := none }, report⟩ := by
  have hlen := h.length_header
  have hne : s.header ++ body ≠ [] := by
    intro hnil
    rw [(List.append_eq_nil_iff.mp hnil).1] at hlen
    cases hlen
  have husable : (s.options.withRecovery policy).Usable := h.usable
  unfold reopen openStore
  rw [exec_bind, exec_check, if_pos husable]
  simp only [exec_bind, exec_modify, exec_get]
  rw [demand, if_pos (by simp [hfile])]
  simp only [exec_pure, hfile, Option.getD_some]
  rw [if_neg hne]

private theorem exec_recoverStore (policy : RecoveryPolicy) (report : RecoveryReport)
    (h : s.Sound) (hjournal : files.journal = some (s.header ++ body))
    (hversion : s.options.formatVersion.toNat < 2 ^ 16)
    (hlimit : (s.header ++ body).length ≤ (readLimit s.options).toNat)
    (hsnapshot : SnapshotReadable (s.options.withRecovery policy) files.snapshot) :
    match keptBytes policy (scanRest s.options.maxRecordBytes {} body) (s.header ++ body) with
    | some kept => ∃ o,
        (recoverStore (s.options.withRecovery policy) (s.header ++ body)).exec
            ⟨{ files with journalTmp := none, snapshotTmp := none }, report⟩ =
          (.ok (s.recovered policy files (scanRest s.options.maxRecordBytes {} body) kept), o)
    | none => ∃ e o,
        (recoverStore (s.options.withRecovery policy) (s.header ++ body)).exec
            ⟨{ files with journalTmp := none, snapshotTmp := none }, report⟩ = (.error e, o) := by
  obtain ⟨o, ho⟩ : ∃ o : Opening,
      o = ⟨{ files with journalTmp := none, snapshotTmp := none }, report⟩ := ⟨_, rfl⟩
  have hheader : (readHeader (s.options.withRecovery policy) (s.header ++ body)).exec o =
      (.ok (s.storeId, s.createdAt), o) :=
    readHeader_header h.identity h.expected rfl hversion hlimit
  have hscan : scanRecords (s.header ++ body) (s.options.withRecovery policy).maxRecordBytes =
      scanRest s.options.maxRecordBytes {} body := scanRecords_header h.identity _ _
  have hfiles : o.files.journal = some (s.header ++ body) := by rw [ho]; exact hjournal
  have hbase : (readSnapshot (s.options.withRecovery policy) o.files.snapshot).exec o =
      (.ok (files.snapshot.map snapshotOf), o) := by
    rw [ho]
    exact readSnapshot_readable hsnapshot
  obtain ⟨o₁, ho₁⟩ : ∃ o₁ : Opening, o₁ = ⟨o.files, scanReport o.report
      (files.snapshot.map snapshotOf) (scanRest s.options.maxRecordBytes {} body)⟩ := ⟨_, rfl⟩
  have hfiles₁ : o₁.files.journal = some (s.header ++ body) := by rw [ho₁]; exact hfiles
  rw [← ho]
  cases hkept : keptBytes policy (scanRest s.options.maxRecordBytes {} body) (s.header ++ body) with
  | some kept =>
    obtain ⟨report', htail⟩ :=
      recoverTail_some (s.options.withRecovery policy) hfiles₁ hkept
    refine ⟨⟨{ o₁.files with journal := some kept }, report'⟩, ?_⟩
    rw [recoverStore, exec_bind, hheader]
    simp only [exec_bind, exec_get]
    rw [hbase]
    simp only [exec_modify, hscan, ← ho₁, htail, exec_pure]
    rw [ho₁, ho]
    rfl
  | none =>
    obtain ⟨e, o', htail⟩ := recoverTail_none (o := o₁) (s.options.withRecovery policy) hkept
    refine ⟨e, o', ?_⟩
    rw [recoverStore, exec_bind, hheader]
    simp only [exec_bind, exec_get]
    rw [hbase]
    simp only [exec_modify, hscan, ← ho₁, htail]

/-- **A sound store is opened again** exactly when the format version fits its two bytes, the
journal can be read, the snapshot file passes its checks and the recovery policy keeps something
of the journal. -/
theorem reopen_iff (h : s.Sound) (hfile : files.journal = some (s.header ++ body)) :
    (∃ o, s.reopen policy files now generated report = (.ok t, o)) ↔
      s.options.formatVersion.toNat < 2 ^ 16 ∧
      (s.header ++ body).length ≤ (readLimit s.options).toNat ∧
      SnapshotReadable (s.options.withRecovery policy) files.snapshot ∧
      ∃ kept, keptBytes policy (scanRest s.options.maxRecordBytes {} body) (s.header ++ body) =
          some kept ∧
        t = s.recovered policy files (scanRest s.options.maxRecordBytes {} body) kept := by
  rw [reopen_eq h hfile]
  constructor
  · rintro ⟨o, hrun⟩
    have hconditions : s.options.formatVersion.toNat < 2 ^ 16 ∧
        (s.header ++ body).length ≤ (readLimit s.options).toNat ∧
        SnapshotReadable (s.options.withRecovery policy) files.snapshot := by
      obtain ⟨found, o₁, hheader, hlater⟩ := exec_bind_ok hrun
      have hfields : s.header ++ body = buildHeader s.storeId s.createdAt
          (s.options.withRecovery policy).formatVersion ++ body := rfl
      obtain ⟨hversion, hlimit, rfl⟩ := readHeader_ok h.identity hfields hheader
      obtain ⟨_, _, hget, hlater⟩ := exec_bind_ok hlater
      cases hget
      obtain ⟨snapshot, o₂, hsnapshot, -⟩ := exec_bind_ok hlater
      exact ⟨hversion, hlimit, (readSnapshot_ok hsnapshot).1⟩
    obtain ⟨hversion, hlimit, hsnapshot⟩ := hconditions
    refine ⟨hversion, hlimit, hsnapshot, ?_⟩
    have hexec := exec_recoverStore policy report h hfile hversion hlimit hsnapshot
    split at hexec
    · next kept hkept =>
      obtain ⟨o', hexec⟩ := hexec
      rw [hexec] at hrun
      cases hrun
      exact ⟨kept, hkept, rfl⟩
    · obtain ⟨e, o', hexec⟩ := hexec
      rw [hexec] at hrun
      cases hrun
  · rintro ⟨hversion, hlimit, hsnapshot, kept, hkept, rfl⟩
    have hexec := exec_recoverStore policy report h hfile hversion hlimit hsnapshot
    rw [hkept] at hexec
    exact hexec

end JournalStore

end OffloadFabric
