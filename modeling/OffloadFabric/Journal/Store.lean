import OffloadFabric.Base.Ids
import OffloadFabric.Fabric.Payload
import OffloadFabric.Journal.Scan

/-!
# The journal store

`JournalStore` (`src/journal.cpp:317-823`) over the bytes of its files. The path is not empty and
the file system does what it is asked, an append apart, which it may stop after any number of
bytes. Durability flags and the counters that only accessors read are left out.
-/

namespace OffloadFabric

open Lib Lib.Fallible

/-- `RecoveryPolicy`, `include/nof/fabric.hpp:31-41`. -/
inductive RecoveryPolicy where
  | refuse | truncateTornTail | truncateDamagedTail
  deriving DecidableEq, Repr

/-- `RecoveryClassification`, `include/nof/fabric.hpp:195-205`. -/
inductive RecoveryClassification where
  | freshStore | cleanReopen | tornTailTruncated | damagedTailTruncated | refusedCorrupt
  | incompatibleVersion | incompatibleSemantics | emptyStore | memoryOnly
  deriving DecidableEq, Repr

/-- The part of `RecoveryReport` a store fills in, `include/nof/fabric.hpp:209-215`. -/
structure RecoveryReport where
  classification : RecoveryClassification := .memoryOnly
  reason : ReasonCode := .ok
  storeGeneration : Gen := 0
  recordsReplayed : Nat := 0
  recordsDiscarded : Nat := 0
  bytesDiscarded : Nat := 0
  deriving DecidableEq

/-- `StoreOpenOptions`, `include/nof/journal.hpp:50-61`. -/
structure StoreOpenOptions where
  createIfMissing : Bool := true
  recovery : RecoveryPolicy := .refuse
  maxJournalBytes : UInt64 := 67108864
  maxSnapshotBytes : UInt64 := 67108864
  maxRecordBytes : UInt64 := 4194304
  expectedStoreId : StoreId := .empty
  formatVersion : UInt32 := 1
  deriving DecidableEq

/-- The bounds `open` accepts, `src/journal.cpp:355-358`. -/
def StoreOpenOptions.Usable (options : StoreOpenOptions) : Prop :=
  256 ≤ options.maxRecordBytes ∧ options.maxRecordBytes ≤ options.maxJournalBytes ∧
    options.maxRecordBytes ≤ options.maxSnapshotBytes

instance (options : StoreOpenOptions) : Decidable options.Usable :=
  inferInstanceAs (Decidable (_ ∧ _))

/-- The files of a store: the journal, its snapshot and what an interrupted compaction leaves. -/
structure StoreFiles where
  journal : Option Bytes := none
  snapshot : Option Bytes := none
  journalTmp : Option Bytes := none
  snapshotTmp : Option Bytes := none
  deriving DecidableEq

/-- The installed snapshot of a store, `src/journal.cpp:328-331`. -/
structure StoreSnapshot where
  payload : Bytes
  covered : UInt64
  generation : Gen
  deriving DecidableEq

/-- An open store with its files, `JournalStore::Impl`, `src/journal.cpp:319-339`. -/
structure JournalStore where
  files : StoreFiles
  options : StoreOpenOptions
  storeId : StoreId
  createdAt : UInt64
  snapshot : Option StoreSnapshot := none
  lastSequence : UInt64 := 0
  bytes : Nat := 64
  closed : Bool := false
  deriving DecidableEq

/-- What opening a store changes besides the store it returns. -/
structure Opening where
  files : StoreFiles
  report : RecoveryReport := {}
  deriving DecidableEq

namespace Journal

/-- `kJournalMagic`, `src/journal.cpp:21`. -/
def magic : Nat := 0x4A464F4E

/-- `kSnapshotMagic`, `src/journal.cpp:22`. -/
def snapshotMagic : Nat := 0x53464F4E

/-- `kSnapshotHeaderSize`, `src/journal.cpp:26`. -/
def snapshotHeaderSize : Nat := 36

/-- The checksummed bytes of a journal header, `src/journal.cpp:162-173`: of the format version
the low two bytes are kept. -/
def headerFields (storeId : StoreId) (createdAt : UInt64) (formatVersion : UInt32) : Bytes :=
  le 4 magic ++ le 2 formatVersion.toNat ++ le 2 Wire.canonicalEncodingVersion.toNat ++
    le 4 headerSize ++ le 4 0 ++ storeId.value ++ le 8 createdAt.toNat

/-- `build_header`, `src/journal.cpp:159-177`: empty for an identity of another length. -/
def buildHeader (storeId : StoreId) (createdAt : UInt64) (formatVersion : UInt32) : Bytes :=
  if storeId.value.length ≠ 32 then []
  else
    let fields := headerFields storeId createdAt formatVersion
    fields ++ le 4 (crc32c fields).toNat ++ le 4 0

/-- The limit of `read_file` for a journal, `src/journal.cpp:430-431`, a wrapping product. -/
def readLimit (options : StoreOpenOptions) : UInt64 :=
  options.maxJournalBytes * 2 + options.maxRecordBytes * 4

/-- The bytes of a snapshot file, `src/journal.cpp:740-756`. -/
def snapshotBytes (formatVersion : UInt32) (snapshot : StoreSnapshot) : Bytes :=
  let fields := le 4 snapshotMagic ++ le 2 formatVersion.toNat ++
    le 2 Wire.canonicalEncodingVersion.toNat ++ le 4 snapshot.payload.length ++
    le 4 (crc32c snapshot.payload).toNat ++ le 8 snapshot.covered.toNat ++
    le 8 snapshot.generation.toNat
  fields ++ le 4 (crc32c fields).toNat ++ snapshot.payload

/-! ## Opening -/

/-- Refuse to open, with the classification the report carries. -/
def refuse {α : Type} (classification : RecoveryClassification) (e : Error) :
    Fallible Opening Error α := do
  modify fun o ↦ { o with report := { o.report with classification, reason := e.code } }
  throw e

/-- A check whose failure is reported. -/
def demand (p : Prop) [Decidable p] (classification : RecoveryClassification) (e : Error) :
    Fallible Opening Error Unit :=
  if p then pure () else refuse classification e

/-- A result whose error is reported. -/
def reported {α : Type} (result : Result α) : Fallible Opening Error α :=
  match result with
  | .ok a => pure a
  | .error e => refuse .refusedCorrupt e

/-- The size check of `read_file`, `src/detail/file_io.cpp:77-79`. -/
def readFile (data : Bytes) (limit : UInt64) : Result Bytes :=
  if data.length ≤ limit.toNat then .ok data
  else .error ⟨.oversizedInput, "store file exceeds the configured size bound"⟩

/-- The header of an existing journal, `src/journal.cpp:430-484`. -/
def readHeader (options : StoreOpenOptions) (file : Bytes) :
    Fallible Opening Error (StoreId × UInt64) := do
  let data ← reported (readFile file (readLimit options))
  demand (headerSize ≤ data.length) .refusedCorrupt ⟨.storeCorrupt, "store header is truncated"⟩
  demand (field 4 0 data = magic) .refusedCorrupt ⟨.storeCorrupt, "store magic does not match"⟩
  demand (field 2 4 data = options.formatVersion.toNat) .incompatibleVersion
    ⟨.incompatibleVersion, "store format version is incompatible"⟩
  demand (field 2 6 data = Wire.canonicalEncodingVersion.toNat) .incompatibleSemantics
    ⟨.incompatibleSemantics, "store semantics version is incompatible"⟩
  demand (field 4 8 data = headerSize) .refusedCorrupt
    ⟨.storeCorrupt, "store header size is not recognized"⟩
  demand (field 4 56 data = (crc32c (data.take 56)).toNat) .refusedCorrupt
    ⟨.storeCorrupt, "store header integrity check failed"⟩
  let storeId : StoreId ← reported (Token.parse ((data.drop 16).take 32))
  demand (options.expectedStoreId.isSet → options.expectedStoreId = storeId) .refusedCorrupt
    ⟨.unknownIdentity, "store identity does not match the expected identity"⟩
  pure (storeId, .ofNat (field 8 48 data))

/-- A snapshot file, `src/journal.cpp:489-533`. -/
def readSnapshotFile (options : StoreOpenOptions) (file : Bytes) :
    Fallible Opening Error StoreSnapshot := do
  let data ← reported (readFile file options.maxSnapshotBytes)
  demand (snapshotHeaderSize ≤ data.length ∧ field 4 0 data = snapshotMagic) .refusedCorrupt
    ⟨.storeCorrupt, "snapshot magic or header is invalid"⟩
  demand (field 2 4 data = options.formatVersion.toNat ∧
      field 2 6 data = Wire.canonicalEncodingVersion.toNat) .incompatibleVersion
    ⟨.incompatibleVersion, "snapshot version is incompatible"⟩
  let payloadLength := field 4 8 data
  demand (payloadLength ≤ options.maxSnapshotBytes.toNat) .refusedCorrupt
    ⟨.oversizedInput, "snapshot payload exceeds the configured bound"⟩
  demand (field 4 32 data = (crc32c (data.take 32)).toNat) .refusedCorrupt
    ⟨.storeCorrupt, "snapshot header integrity check failed"⟩
  demand (data.length = snapshotHeaderSize + payloadLength) .refusedCorrupt
    ⟨.storeCorrupt, "snapshot size does not match its header"⟩
  let payload := data.drop snapshotHeaderSize
  demand (field 4 12 data = (crc32c payload).toNat) .refusedCorrupt
    ⟨.storeCorrupt, "snapshot payload integrity check failed"⟩
  pure ⟨payload, .ofNat (field 8 16 data), .ofNat (field 8 24 data)⟩

/-- The snapshot base of a store, if it has one. -/
def readSnapshot (options : StoreOpenOptions) : Option Bytes →
    Fallible Opening Error (Option StoreSnapshot)
  | none => pure none
  | some file => some <$> readSnapshotFile options file

/-- The report before the tail is judged, `src/journal.cpp:540-544`. -/
def scanReport (report : RecoveryReport) (snapshot : Option StoreSnapshot)
    (outcome : ScanOutcome) : RecoveryReport :=
  let generation := (snapshot.map (·.generation)).getD 0
  { report with
    recordsReplayed := outcome.records
    recordsDiscarded := if 0 < outcome.discardedBytes then 1 else 0
    bytesDiscarded := outcome.discardedBytes
    storeGeneration := if generation = 0 then 1 else generation }

/-- `tail_truncation_allowed`, `src/journal.cpp:547-549`. -/
def tailTruncationAllowed (recovery : RecoveryPolicy) (outcome : ScanOutcome) : Prop :=
  outcome.torn = true ∧ recovery = .truncateTornTail ∨ recovery = .truncateDamagedTail

instance (recovery : RecoveryPolicy) (outcome : ScanOutcome) :
    Decidable (tailTruncationAllowed recovery outcome) := inferInstanceAs (Decidable (_ ∨ _))

/-- The judgement of the tail, `src/journal.cpp:546-579`: the file and its size afterwards. -/
def recoverTail (options : StoreOpenOptions) (data : Bytes) (outcome : ScanOutcome) :
    Fallible Opening Error Bytes := do
  if outcome.torn ∨ outcome.damaged then
    demand (tailTruncationAllowed options.recovery outcome) .refusedCorrupt
      ⟨outcome.reason, "store tail is not usable under the configured recovery policy: " ++
        outcome.detail⟩
    let classification : RecoveryClassification :=
      if outcome.torn then .tornTailTruncated else .damagedTailTruncated
    modify fun o ↦ { o with
      files := { o.files with journal := some (data.take outcome.lastGoodOffset) }
      report := { o.report with classification, reason := outcome.reason } }
    pure (data.take outcome.lastGoodOffset)
  else
    modify fun o ↦ { o with
      report := { o.report with classification := .cleanReopen, reason := .ok } }
    pure data

end Journal

namespace JournalStore

open Journal

/-- The store over an empty file, `src/journal.cpp:406-428`. -/
def createStore (options : StoreOpenOptions) (now : UInt64) (generated : StoreId)
    (existed : Bool) : Fallible Opening Error JournalStore := do
  let storeId := if options.expectedStoreId.isSet then options.expectedStoreId else generated
  let header := buildHeader storeId now options.formatVersion
  check (header ≠ []) ⟨.invalidConfiguration, "store identity is not canonical"⟩
  let classification : RecoveryClassification := if existed then .emptyStore else .freshStore
  modify fun o ↦ { o with
    files := { o.files with journal := some header }
    report := { o.report with classification, reason := .ok } }
  let o ← get
  pure { files := o.files, options, storeId, createdAt := now }

/-- The store over an existing file, `src/journal.cpp:430-579`. -/
def recoverStore (options : StoreOpenOptions) (file : Bytes) :
    Fallible Opening Error JournalStore := do
  let (storeId, createdAt) ← readHeader options file
  let snapshot ← readSnapshot options (← get).files.snapshot
  let outcome := scanRecords file options.maxRecordBytes
  modify fun o ↦ { o with report := scanReport o.report snapshot outcome }
  let kept ← recoverTail options file outcome
  let o ← get
  pure { files := o.files, options, storeId, createdAt, snapshot
         lastSequence := outcome.lastSequence, bytes := kept.length }

/-- `JournalStore::open`, `src/journal.cpp:349-580`, at a clock reading and with the identity it
would generate. -/
def openStore (options : StoreOpenOptions) (now : UInt64) (generated : StoreId) :
    Fallible Opening Error JournalStore := do
  check options.Usable ⟨.invalidConfiguration, "store bounds are not usable"⟩
  modify fun o ↦ { o with files := { o.files with journalTmp := none, snapshotTmp := none } }
  let file := (← get).files.journal
  demand (file.isSome ∨ options.createIfMissing) .refusedCorrupt
    ⟨.storeUnavailable, "store does not exist and creation is disabled"⟩
  modify fun o ↦ { o with files := { o.files with journal := some (file.getD []) } }
  if file.getD [] = [] then createStore options now generated file.isSome
  else recoverStore options (file.getD [])

/-! ## Appending and compacting -/

/-- `snapshot_covered`, zero without a snapshot. -/
def snapshotCovered (s : JournalStore) : UInt64 := (s.snapshot.map (·.covered)).getD 0

/-- The journal file of an open store. -/
def file (s : JournalStore) : Bytes := s.files.journal.getD []

/-- `write_all` on the journal, which is positioned at its end. -/
def write (s : JournalStore) (data : Bytes) : JournalStore :=
  { s with files := { s.files with journal := some (s.file ++ data) } }

/-- The refusals of `append` before it writes, `src/journal.cpp:612-641`. -/
def admission (s : JournalStore) (payload : Bytes) : Result Unit := do
  require (s.closed = false) ⟨.storeClosed, "store is closed"⟩
  require (payload.length ≤ s.options.maxRecordBytes.toNat)
    ⟨.oversizedInput, "record payload exceeds the configured bound"⟩
  require (recordHeaderSize + payload.length + recordTrailerSize < 2 ^ 64)
    ⟨.arithmeticOverflow, "record size overflow"⟩
  require (s.options.maxJournalBytes.toNat * 2 < 2 ^ 64)
    ⟨.arithmeticOverflow, "journal cap overflow"⟩
  require (s.bytes + (recordHeaderSize + payload.length + recordTrailerSize) < 2 ^ 64)
    ⟨.arithmeticOverflow, "journal size overflow"⟩
  require (s.bytes + (recordHeaderSize + payload.length + recordTrailerSize) ≤
      s.options.maxJournalBytes.toNat * 2)
    ⟨.compactionRequired, "journal reached its hard size cap and must be compacted"⟩
  require (s.lastSequence.toNat + 1 < 2 ^ 64)
    ⟨.arithmeticOverflow, "journal sequence exhausted"⟩

/-- The record the next append writes. -/
def nextRecord (s : JournalStore) (type : RecordType) (payload : Bytes) : JournalRecord :=
  ⟨type, s.lastSequence + 1, payload, 0, 0⟩

/-- `JournalStore::append`, `src/journal.cpp:610-667`; the file system may stop it after the given
number of bytes of the record. -/
def append (fault : Option Nat) (type : RecordType) (payload : Bytes) :
    Fallible JournalStore Error Unit := do
  let s ← get
  liftExcept (s.admission payload)
  let r := s.nextRecord type payload
  match fault with
  | some k =>
      set (s.write (r.bytes.take k))
      throw ⟨.storeUnavailable, "short write to store file"⟩
  | none =>
      set { s.write r.bytes with lastSequence := r.sequence, bytes := s.bytes + r.size }

/-- The first two steps of `JournalStore::compact`, `src/journal.cpp:726-815`: the snapshot and
the bare journal behind it. -/
def install (payload : Bytes) (covered : UInt64) (generation : Gen) :
    Fallible JournalStore Error Unit := do
  let s ← get
  check (s.closed = false) ⟨.storeClosed, "store is closed"⟩
  check (payload.length ≤ s.options.maxSnapshotBytes.toNat)
    ⟨.oversizedInput, "snapshot exceeds the configured bound"⟩
  check (s.snapshotCovered ≤ covered)
    ⟨.sequenceRegression, "snapshot would move backwards"⟩
  let snapshot : StoreSnapshot := ⟨payload, covered, generation⟩
  modify fun s ↦ { s with
    files := { s.files with snapshot := some (snapshotBytes s.options.formatVersion snapshot) } }
  let header := buildHeader s.storeId s.createdAt s.options.formatVersion
  check (header ≠ []) ⟨.invalidConfiguration, "store identity is not canonical"⟩
  modify fun s ↦ { s with
    files := { s.files with journal := some header }
    snapshot := some snapshot
    lastSequence := covered
    bytes := headerSize }

/-- `JournalStore::compact`, `src/journal.cpp:726-823`. -/
def compact (payload : Bytes) (covered : UInt64) (generation : Gen) :
    Fallible JournalStore Error Unit := do
  install payload covered generation
  append none .snapshotBase (le 8 covered.toNat ++ le 8 generation.toNat ++ le 8 0)

end JournalStore

end OffloadFabric
