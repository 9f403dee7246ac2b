import OffloadFabric.Journal.Record

/-!
# Scanning a journal

`scan_records` (`src/journal.cpp:88-157`), which walks the records from the header to the first
place it cannot read.
-/

namespace OffloadFabric

open Lib

/-- `ScanOutcome`, `src/journal.cpp:77-86`, with the accepted records, which nothing reads. -/
structure ScanOutcome where
  lastGoodOffset : Nat := Journal.headerSize
  lastSequence : UInt64 := 0
  records : Nat := 0
  discardedBytes : Nat := 0
  torn : Bool := false
  damaged : Bool := false
  reason : ReasonCode := .ok
  detail : String := ""
  accepted : List JournalRecord := []
  deriving DecidableEq

namespace ScanOutcome

/-- The scan ends in a torn tail, `src/journal.cpp:94-101,120-126`. -/
def tear (outcome : ScanOutcome) (detail : String) (remaining : Nat) : ScanOutcome :=
  { outcome with torn := true, reason := .journalTornTail, detail, discardedBytes := remaining }

/-- The scan ends at damage, `src/journal.cpp:104-119,127-149`. -/
def damage (outcome : ScanOutcome) (reason : ReasonCode) (detail : String) (remaining : Nat) :
    ScanOutcome :=
  { outcome with damaged := true, reason, detail, discardedBytes := remaining }

/-- The scan goes on behind a record, `src/journal.cpp:150-154`. -/
def accept (outcome : ScanOutcome) (r : JournalRecord) : ScanOutcome :=
  { outcome with
    lastGoodOffset := outcome.lastGoodOffset + r.size
    lastSequence := r.sequence
    records := outcome.records + 1
    accepted := outcome.accepted ++ [r] }

/-- A record may follow, `src/journal.cpp:143`: the first one, or one of a later sequence. -/
def Precedes (outcome : ScanOutcome) (sequence : UInt64) : Prop :=
  outcome.records = 0 ∨ outcome.lastSequence < sequence

instance (outcome : ScanOutcome) (sequence : UInt64) : Decidable (outcome.Precedes sequence) :=
  inferInstanceAs (Decidable (_ ∨ _))

end ScanOutcome

namespace Journal

/-- One turn of the loop of `scan_records` over the bytes not yet read: the record in front, or
the outcome the scan ends with. -/
def scanRecord (maxRecordBytes : UInt64) (outcome : ScanOutcome) (rest : Bytes) :
    Except ScanOutcome JournalRecord :=
  let remaining := rest.length
  let payloadLength := framing.declared rest
  let total := framing.total rest
  if remaining < recordHeaderSize + recordTrailerSize then
    .error (outcome.tear "partial trailing record header" remaining)
  else if maxRecordBytes.toNat < payloadLength then
    .error (outcome.damage .oversizedInput "record length exceeds the configured bound" remaining)
  else if 2 ^ 64 ≤ total then
    .error (outcome.damage .arithmeticOverflow "record length overflow" remaining)
  else if remaining < total then
    .error (outcome.tear "partial trailing record payload" remaining)
  else match RecordType.ofCode? (.ofNat (field 2 4 rest)) with
    | none => .error (outcome.damage .storeCorrupt "record carries an unknown type" remaining)
    | some type =>
      let data := rest.take total
      if field 4 (total - recordTrailerSize) rest ≠
          (crc32c (rest.take (total - recordTrailerSize))).toNat then
        .error (outcome.damage .storeCorrupt "record integrity check failed" remaining)
      else if ¬ outcome.Precedes (.ofNat (field 8 8 rest)) then
        .error (outcome.damage .sequenceRegression "record sequence regressed" remaining)
      else .ok (.ofBytes type data)

/-- The loop of `scan_records`, with a bound on its turns. -/
def scanFrom (maxRecordBytes : UInt64) : Nat → ScanOutcome → Bytes → ScanOutcome
  | 0, outcome, _ => outcome
  | turns + 1, outcome, rest =>
    if rest = [] then outcome
    else match scanRecord maxRecordBytes outcome rest with
      | .error ended => ended
      | .ok r => scanFrom maxRecordBytes turns (outcome.accept r) (rest.drop r.size)

/-- `scan_records`, `src/journal.cpp:88-157`; every turn reads at least one byte. -/
def scanRecords (data : Bytes) (maxRecordBytes : UInt64) : ScanOutcome :=
  scanFrom maxRecordBytes data.length {} (data.drop headerSize)

/-- The rest of a journal from some place on, with as many turns as it may need. -/
def scanRest (maxRecordBytes : UInt64) (outcome : ScanOutcome) (rest : Bytes) : ScanOutcome :=
  scanFrom maxRecordBytes rest.length outcome rest

/-! ## One turn -/

/-- A record the scan accepts behind what it has read. -/
structure Readable (maxRecordBytes : UInt64) (outcome : ScanOutcome) (r : JournalRecord) :
    Prop where
  fits : r.Fits
  bounded : r.payload.length ≤ maxRecordBytes.toNat
  precedes : outcome.Precedes r.sequence

/-- The bytes end inside a record of a length within the bound. -/
def Torn (maxRecordBytes : UInt64) (rest : Bytes) : Prop :=
  rest.length < recordHeaderSize + recordTrailerSize ∨
    framing.declared rest ≤ maxRecordBytes.toNat ∧ rest.length < framing.total rest

instance (maxRecordBytes : UInt64) (rest : Bytes) : Decidable (Torn maxRecordBytes rest) :=
  inferInstanceAs (Decidable (_ ∨ _))

variable {maxRecordBytes : UInt64} {outcome : ScanOutcome} {r : JournalRecord} {rest tail : Bytes}

theorem total_lt (rest : Bytes) : framing.total rest < 2 ^ 64 := by
  have h := Framing.declared_lt (f := framing) rest
  simp only [Framing.total, framing, recordHeaderSize] at *
  omega

theorem header_le_total (rest : Bytes) : 24 ≤ framing.total rest := by
  simp only [Framing.total, framing, recordHeaderSize]
  omega

/-- A record that is not longer than a record header and trailer is no record. -/
theorem not_torn_bytes (h : r.Fits) : ¬ Torn maxRecordBytes (r.bytes ++ tail) := by
  have hsize : (r.bytes ++ tail).length = r.size + tail.length := by simp
  simp only [Torn, h.total, hsize, not_or, not_and, not_lt]
  constructor
  · simp only [JournalRecord.size]
    omega
  · intro _
    omega

/-- The type of a record in front is known. -/
theorem type_of_bytes (r : JournalRecord) (tail : Bytes) :
    RecordType.ofCode? (.ofNat (field 2 4 (r.bytes ++ tail))) = some r.type := by
  rw [JournalRecord.type_bytes, UInt16.ofNat_toNat]
  exact Coded.ofCode?_code r.type

/-- The checksum of a record in front matches. -/
theorem checksum_of_bytes (h : r.Fits) (tail : Bytes) :
    field 4 (r.size - recordTrailerSize) (r.bytes ++ tail) =
      (crc32c ((r.bytes ++ tail).take (r.size - recordTrailerSize))).toNat := by
  have hsum := h.framed.sum
  have hle := h.framed.header_le
  rw [JournalRecord.length_bytes] at hsum hle
  simp only [framing, recordHeaderSize] at hle
  rw [recordTrailerSize, field_append _ (by rw [JournalRecord.length_bytes]; omega), hsum,
    List.take_append_of_le_length (by rw [JournalRecord.length_bytes]; omega)]
  rfl

/-- A readable record in front is what the turn reads. -/
theorem scanRecord_bytes (h : Readable maxRecordBytes outcome r) (tail : Bytes) :
    scanRecord maxRecordBytes outcome (r.bytes ++ tail) = .ok r := by
  have hlen : (r.bytes ++ tail).length = r.size + tail.length := by simp
  have hshort : ¬ (r.bytes ++ tail).length < recordHeaderSize + recordTrailerSize := by
    rw [hlen, JournalRecord.size]
    omega
  have htotal : framing.total (r.bytes ++ tail) = r.size := h.fits.total
  have hover : ¬ 2 ^ 64 ≤ r.size := htotal ▸ Nat.not_le.mpr (total_lt _)
  have htake : (r.bytes ++ tail).take r.size = r.bytes := by
    rw [← JournalRecord.length_bytes, List.take_left]
  have htype : RecordType.ofCode? (.ofNat (field 2 4 (r.bytes ++ tail))) = some r.type :=
    type_of_bytes r tail
  have hprecedes : outcome.Precedes (.ofNat (field 8 8 (r.bytes ++ tail))) := by
    rw [JournalRecord.sequence_bytes, UInt64.ofNat_toNat]
    exact h.precedes
  unfold scanRecord
  simp only [htotal, h.fits.declared, htake, htype, checksum_of_bytes h.fits tail, hprecedes]
  rw [if_neg hshort, if_neg (by have := h.bounded; omega), if_neg hover,
    if_neg (by rw [hlen]; omega), if_neg (by simp), if_neg (by simp), h.fits.ofBytes_bytes]

/-- What a turn does: it reads the readable record in front, or ends torn inside a record, or ends
at damage. -/
theorem scanRecord_cases (maxRecordBytes : UInt64) (outcome : ScanOutcome) (rest : Bytes) :
    (∃ r tail, rest = r.bytes ++ tail ∧ Readable maxRecordBytes outcome r ∧
      scanRecord maxRecordBytes outcome rest = .ok r) ∨
    (∃ detail, Torn maxRecordBytes rest ∧
      scanRecord maxRecordBytes outcome rest = .error (outcome.tear detail rest.length)) ∨
    ∃ reason detail, ¬ Torn maxRecordBytes rest ∧
      scanRecord maxRecordBytes outcome rest =
        .error (outcome.damage reason detail rest.length) := by
  unfold scanRecord
  by_cases hshort : rest.length < recordHeaderSize + recordTrailerSize
  · exact .inr (.inl ⟨_, .inl hshort, if_pos hshort⟩)
  simp only [if_neg hshort]
  by_cases hlong : maxRecordBytes.toNat < framing.declared rest
  · refine .inr (.inr ⟨_, _, ?_, if_pos hlong⟩)
    simp only [Torn, not_or, not_and]
    exact ⟨hshort, fun h ↦ absurd h (by omega)⟩
  simp only [if_neg hlong, if_neg (Nat.not_le.mpr (total_lt rest))]
  by_cases hpart : rest.length < framing.total rest
  · exact .inr (.inl ⟨_, .inr ⟨by omega, hpart⟩, if_pos hpart⟩)
  have htorn : ¬ Torn maxRecordBytes rest := by
    simp only [Torn, not_or, not_and]
    exact ⟨hshort, fun _ ↦ hpart⟩
  simp only [if_neg hpart]
  cases htype : RecordType.ofCode? (.ofNat (field 2 4 rest)) with
  | none => exact .inr (.inr ⟨_, _, htorn, rfl⟩)
  | some type =>
    simp only
    by_cases hsum : field 4 (framing.total rest - recordTrailerSize) rest =
        (crc32c (rest.take (framing.total rest - recordTrailerSize))).toNat
    · rw [if_neg (not_not.mpr hsum)]
      by_cases hprecedes : outcome.Precedes (.ofNat (field 8 8 rest))
      · rw [if_neg (not_not.mpr hprecedes)]
        have hge := header_le_total rest
        have hheader : framing.headerSize ≤ 24 := by decide
        have htotal : framing.total (rest.take (framing.total rest)) = framing.total rest :=
          Framing.total_take rest (hheader.trans hge)
        have hlen : (rest.take (framing.total rest)).length = framing.total rest := by
          rw [List.length_take]
          omega
        have hframed : framing.Framed (rest.take (framing.total rest)) := by
          refine ⟨by rw [hlen, htotal], ?_⟩
          rw [hlen, field_take _ (by omega), List.take_take, Nat.min_eq_left (by omega)]
          exact hsum
        have hbytes : (JournalRecord.ofBytes type (rest.take (framing.total rest))).bytes =
            rest.take (framing.total rest) := by
          refine JournalRecord.bytes_ofBytes hframed ?_
          rw [field_take _ (by omega), htype]
        refine .inl ⟨_, rest.drop (framing.total rest), ?_, ⟨?_, ?_, ?_⟩, rfl⟩
        · rw [hbytes, List.take_append_drop]
        · exact JournalRecord.fits_ofBytes hframed
        · rw [JournalRecord.length_payload_ofBytes hframed,
            Framing.declared_take rest (hheader.trans hge)]
          omega
        · simp only [JournalRecord.ofBytes]
          rwa [field_take _ (by omega)]
      · exact .inr (.inr ⟨_, _, htorn, if_pos hprecedes⟩)
    · exact .inr (.inr ⟨_, _, htorn, if_pos hsum⟩)

/-! ## The whole scan -/

/-- The scan loses nothing by more turns than bytes. -/
theorem scanFrom_eq_scanRest {turns : Nat} (outcome : ScanOutcome) {rest : Bytes}
    (h : rest.length ≤ turns) :
    scanFrom maxRecordBytes turns outcome rest = scanRest maxRecordBytes outcome rest := by
  suffices hall : ∀ turns turns' outcome (rest : Bytes), rest.length ≤ turns →
      rest.length ≤ turns' → scanFrom maxRecordBytes turns outcome rest =
        scanFrom maxRecordBytes turns' outcome rest from hall _ _ _ _ h le_rfl
  intro turns
  induction turns with
  | zero =>
    intro turns' outcome rest h _
    have : rest = [] := List.eq_nil_of_length_eq_zero (by omega)
    subst this
    cases turns' <;> rfl
  | succ turns ih =>
    intro turns' outcome rest h h'
    cases turns' with
    | zero =>
      have : rest = [] := List.eq_nil_of_length_eq_zero (by omega)
      subst this
      rfl
    | succ turns' =>
      simp only [scanFrom]
      split
      · rfl
      · next hne =>
        split
        · rfl
        · next r _ =>
          have hpos := r.size_pos
          have hdrop : (rest.drop r.size).length = rest.length - r.size := by simp
          exact ih _ _ _ (by omega) (by omega)

@[simp] theorem scanRest_nil (outcome : ScanOutcome) :
    scanRest maxRecordBytes outcome [] = outcome := rfl

theorem scanRest_ok {outcome : ScanOutcome} (h : Readable maxRecordBytes outcome r)
    (tail : Bytes) : scanRest maxRecordBytes outcome (r.bytes ++ tail) =
      scanRest maxRecordBytes (outcome.accept r) tail := by
  have hpos := r.size_pos
  have hlen : (r.bytes ++ tail).length = r.size + tail.length := by simp
  have hne : r.bytes ++ tail ≠ [] := fun h ↦ by rw [h] at hlen; simp at hlen; omega
  obtain ⟨turns, hturns⟩ : ∃ turns, (r.bytes ++ tail).length = turns + 1 :=
    ⟨(r.bytes ++ tail).length - 1, by omega⟩
  rw [scanRest, hturns, scanFrom, if_neg hne, scanRecord_bytes h tail]
  have hdrop : (r.bytes ++ tail).drop r.size = tail := by
    rw [← JournalRecord.length_bytes, List.drop_left]
  simp only [hdrop]
  exact scanFrom_eq_scanRest _ (by omega)

theorem scanRest_error {outcome ended : ScanOutcome} (hne : rest ≠ [])
    (h : scanRecord maxRecordBytes outcome rest = .error ended) :
    scanRest maxRecordBytes outcome rest = ended := by
  cases rest with
  | nil => exact absurd rfl hne
  | cons b bs => rw [scanRest, List.length_cons, scanFrom, if_neg hne, h]

/-- Records the scan accepts one behind the other. -/
def AllReadable (maxRecordBytes : UInt64) : ScanOutcome → List JournalRecord → Prop
  | _, [] => True
  | outcome, r :: rs =>
    Readable maxRecordBytes outcome r ∧ AllReadable maxRecordBytes (outcome.accept r) rs

/-- The outcome behind a run of records. -/
def acceptAll (outcome : ScanOutcome) (rs : List JournalRecord) : ScanOutcome :=
  rs.foldl ScanOutcome.accept outcome

/-- The bytes of a run of records. -/
def recordBytes (rs : List JournalRecord) : Bytes := rs.flatMap JournalRecord.bytes

@[simp] theorem recordBytes_nil : recordBytes [] = [] := rfl

@[simp] theorem recordBytes_cons (r : JournalRecord) (rs : List JournalRecord) :
    recordBytes (r :: rs) = r.bytes ++ recordBytes rs := rfl

@[simp] theorem recordBytes_append (rs rs' : List JournalRecord) :
    recordBytes (rs ++ rs') = recordBytes rs ++ recordBytes rs' :=
  List.flatMap_append

/-- **A run of readable records is read, and the scan goes on behind it.** -/
theorem scanRest_records {outcome : ScanOutcome} {rs : List JournalRecord}
    (h : AllReadable maxRecordBytes outcome rs) (tail : Bytes) :
    scanRest maxRecordBytes outcome (recordBytes rs ++ tail) =
      scanRest maxRecordBytes (acceptAll outcome rs) tail := by
  induction rs generalizing outcome with
  | nil => rfl
  | cons r rs ih =>
    rw [recordBytes, List.flatMap_cons, List.append_assoc, scanRest_ok h.1]
    exact ih h.2

/-- **What a scan finds**: a run of readable records, and behind it nothing, a part of a record
or damage. -/
theorem scanRest_cases (maxRecordBytes : UInt64) (outcome : ScanOutcome) (rest : Bytes) :
    ∃ rs tail, rest = recordBytes rs ++ tail ∧ AllReadable maxRecordBytes outcome rs ∧
      (tail = [] ∧ scanRest maxRecordBytes outcome rest = acceptAll outcome rs ∨
      tail ≠ [] ∧ Torn maxRecordBytes tail ∧ (∃ detail,
        scanRest maxRecordBytes outcome rest =
          (acceptAll outcome rs).tear detail tail.length) ∨
      tail ≠ [] ∧ ¬ Torn maxRecordBytes tail ∧ ∃ reason detail,
        scanRest maxRecordBytes outcome rest =
          (acceptAll outcome rs).damage reason detail tail.length) := by
  induction hn : rest.length using Nat.strong_induction_on generalizing outcome rest with
  | _ n ih =>
    by_cases hne : rest = []
    · subst hne
      exact ⟨[], [], rfl, trivial, .inl ⟨rfl, rfl⟩⟩
    rcases scanRecord_cases maxRecordBytes outcome rest with
      ⟨r, tail, rfl, hr, -⟩ | ⟨detail, htorn, hscan⟩ | ⟨reason, detail, htorn, hscan⟩
    · have hpos := r.size_pos
      have hlen : (r.bytes ++ tail).length = r.size + tail.length := by simp
      obtain ⟨rs, tail', rfl, hrs, hends⟩ :=
        ih tail.length (by omega) (outcome.accept r) tail rfl
      refine ⟨r :: rs, tail', by simp [recordBytes], ⟨hr, hrs⟩, ?_⟩
      rw [scanRest_ok hr]
      exact hends
    · exact ⟨[], rest, rfl, trivial,
        .inr (.inl ⟨hne, htorn, detail, scanRest_error hne hscan⟩)⟩
    · exact ⟨[], rest, rfl, trivial,
        .inr (.inr ⟨hne, htorn, reason, detail, scanRest_error hne hscan⟩)⟩

/-! ## The outcome behind a run -/

section Behind

variable {rs : List JournalRecord}

@[simp] theorem accepted_acceptAll :
    (acceptAll outcome rs).accepted = outcome.accepted ++ rs := by
  induction rs generalizing outcome with
  | nil => simp [acceptAll]
  | cons r rs ih =>
    have hrest := @ih (outcome.accept r)
    simp only [acceptAll, List.foldl_cons] at hrest ⊢
    rw [hrest]
    simp [ScanOutcome.accept]

@[simp] theorem lastGoodOffset_acceptAll :
    (acceptAll outcome rs).lastGoodOffset = outcome.lastGoodOffset + (recordBytes rs).length := by
  induction rs generalizing outcome with
  | nil => rfl
  | cons r rs ih =>
    have hrest := @ih (outcome.accept r)
    simp only [acceptAll, List.foldl_cons] at hrest ⊢
    rw [hrest]
    simp [ScanOutcome.accept, Nat.add_assoc]

@[simp] theorem torn_acceptAll : (acceptAll outcome rs).torn = outcome.torn := by
  induction rs generalizing outcome with
  | nil => rfl
  | cons r rs ih => exact @ih (outcome.accept r)

@[simp] theorem damaged_acceptAll : (acceptAll outcome rs).damaged = outcome.damaged := by
  induction rs generalizing outcome with
  | nil => rfl
  | cons r rs ih => exact @ih (outcome.accept r)

end Behind

/-- A scan in front of a part of a record ends torn. -/
theorem scanRest_torn (outcome : ScanOutcome) (hne : tail ≠ []) (h : Torn maxRecordBytes tail) :
    ∃ detail, scanRest maxRecordBytes outcome tail = outcome.tear detail tail.length := by
  rcases scanRecord_cases maxRecordBytes outcome tail with
    ⟨r, more, rfl, hr, -⟩ | ⟨detail, -, hscan⟩ | ⟨reason, detail, hwhole, -⟩
  · exact absurd h (not_torn_bytes hr.fits)
  · exact ⟨detail, scanRest_error hne hscan⟩
  · exact absurd h hwhole

/-- A scan ends without damage exactly when the bytes are readable records and a part of one. -/
theorem undamaged_iff {outcome : ScanOutcome} (h : outcome.damaged = false) :
    (scanRest maxRecordBytes outcome rest).damaged = false ↔
      ∃ rs tail, rest = recordBytes rs ++ tail ∧ AllReadable maxRecordBytes outcome rs ∧
        (tail = [] ∨ Torn maxRecordBytes tail) := by
  constructor
  · intro hscan
    obtain ⟨rs, tail, hrest, hrs, hends⟩ := scanRest_cases maxRecordBytes outcome rest
    refine ⟨rs, tail, hrest, hrs, ?_⟩
    rcases hends with ⟨hnil, -⟩ | ⟨-, htorn, -⟩ | ⟨-, -, reason, detail, hdamage⟩
    · exact .inl hnil
    · exact .inr htorn
    · rw [hdamage] at hscan
      cases hscan
  · rintro ⟨rs, tail, rfl, hrs, htail⟩
    rw [scanRest_records hrs]
    rcases eq_or_ne tail [] with rfl | hne
    · rw [scanRest_nil, damaged_acceptAll, h]
    · obtain ⟨detail, htear⟩ := scanRest_torn (acceptAll outcome rs) hne (htail.resolve_left hne)
      rw [htear]
      exact damaged_acceptAll.trans h

end Journal

end OffloadFabric
