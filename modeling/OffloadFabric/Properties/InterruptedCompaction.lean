import OffloadFabric.Properties.StoreRefinement

/-!
# Interrupted compactions

What becomes of records behind a compaction that ends inside its base record
(`src/journal.cpp:726-823`): the opening that follows starts to number records anew
(`src/journal.cpp:536-537`), below the sequences its snapshot covers, and the next one does not
show them (`src/journal.cpp:664-724`).
-/

namespace OffloadFabric

open Lib Lib.Fallible Journal JournalStore

variable {b : Bounds} {recovery : RecoveryPolicy} {expected : StoreId}

/-! ## Openings -/

/-- What a policy keeps of whole records and a torn part behind them is the records. -/
private theorem kept_records {maxRecordBytes : UInt64} {header tail kept : Bytes}
    {rs : List JournalRecord} (policy : RecoveryPolicy)
    (hscan : CutScan maxRecordBytes (recordBytes rs ++ tail) rs (tail = []))
    (hheader : header.length = headerSize)
    (hkept : keptBytes policy (scanRest maxRecordBytes {} (recordBytes rs ++ tail))
      (header ++ (recordBytes rs ++ tail)) = some kept) : kept = header ++ recordBytes rs := by
  by_cases hallowed : tail = [] ∨ policy ≠ .refuse
  · have hsome := kept_of_truncates policy hscan hheader hallowed
    exact Option.some.inj (hkept.symm.trans hsome)
  · obtain ⟨htail, hpolicy⟩ := not_or.mp hallowed
    have hpolicy := not_not.mp hpolicy
    have htorn := hscan.torn.mpr htail
    have hrefused : ¬ tailTruncationAllowed policy
        (scanRest maxRecordBytes {} (recordBytes rs ++ tail)) := by
      unfold tailTruncationAllowed
      simp [hpolicy]
    unfold keptBytes at hkept
    rw [if_pos (.inl htorn), if_neg hrefused] at hkept
    cases hkept

/-- **What an opening of a sound store recovers**: the payload of its snapshot, and the records
past what the snapshot covers. -/
theorem recovery_of_open {s t : JournalStore} (hs : s.Sound) {sequence : UInt64}
    {rs : List JournalRecord} {tail : Bytes}
    (hjournal : s.files.journal = some (s.header ++ (recordBytes rs ++ tail)))
    (hascending : Ascending s.options.maxRecordBytes sequence rs) (hsized : ∀ r ∈ rs, Sized r)
    (htail : tail = [] ∨ Stops tail ∧ Torn s.options.maxRecordBytes tail) {now : UInt64}
    {generated : StoreId} {report : RecoveryReport} {o : Opening}
    (hopen : (openStore s.options now generated).exec ⟨s.files, report⟩ = (.ok t, o)) :
    (∃ outcome : ScanOutcome, outcome.lastSequence = lastOf 0 rs ∧
      t = s.recovered s.options.recovery s.files outcome (s.header ++ recordBytes rs)) ∧
      StoreSession.recovery t = ((s.files.snapshot.map snapshotOf).map (·.payload),
        .ok (shownRecords (coveredBy s.files.snapshot) rs)) := by
  have hscan := cutScan_tail hascending hsized htail
  have hreopen : s.reopen s.options.recovery s.files now generated report = (.ok t, o) := hopen
  obtain ⟨-, hlimit, -, kept, hkept, rfl⟩ := (reopen_iff hs hjournal).mp ⟨o, hreopen⟩
  cases kept_records _ hscan hs.length_header hkept
  refine ⟨⟨_, hscan.lastSequence, rfl⟩, ?_⟩
  have hshort : (s.header ++ recordBytes rs).length ≤ (readLimit s.options).toNat := by
    rw [List.length_append, List.length_append] at hlimit
    rw [List.length_append]
    omega
  obtain ⟨gone, hshown⟩ := StoreSession.exec_collect (coveredBy s.files.snapshot) rs [] []
  unfold StoreSession.recovery
  rw [replay_recovered hs hsized hshort, hshown]
  rfl

/-- A process that opens its store shows what the store recovers. -/
theorem StoreSession.reopen_ok {session session' : StoreSession} {now : UInt64}
    {generated : StoreId} {recovered : Recovery}
    (h : (StoreSession.reopen now generated).exec session = (.ok recovered, session')) :
    ∃ t o, (openStore session.store.options now generated).exec ⟨session.store.files, {}⟩ =
        (.ok t, o) ∧ session' = { store := t } ∧ recovered = StoreSession.recovery t := by
  unfold StoreSession.reopen at h
  rw [exec_bind, exec_get] at h
  simp only at h
  split at h
  · next t o hopen =>
    cases h
    exact ⟨t, o, hopen, rfl, rfl⟩
  · cases h

/-! ## Records numbered anew -/

/-- Of records numbered behind a sequence, a replay shows those past what is covered. -/
theorem shownRecords_numbered {maxRecordBytes sequence covered : UInt64}
    {items : List (RecordType × Bytes)} (hitems : ∀ item ∈ items, item.1 ≠ .snapshotBase)
    (h : Ascending maxRecordBytes sequence (numbered sequence items)) :
    shownRecords covered (numbered sequence items) =
      items.drop (covered.toNat - sequence.toNat) := by
  induction items generalizing sequence with
  | nil => simp [numbered, shownRecords]
  | cons item items ih =>
    obtain ⟨type, payload⟩ := item
    obtain ⟨htype, hitems⟩ := List.forall_mem_cons.mp hitems
    have habove : sequence < sequence + 1 := h.above _ List.mem_cons_self
    have hnext : (sequence + 1).toNat = sequence.toNat + 1 := by
      have hlt := UInt64.lt_iff_toNat_lt.mp habove
      have hone : (1 : UInt64).toNat = 1 := rfl
      have hbound := sequence.toNat_lt
      rw [UInt64.toNat_add, hone] at hlt ⊢
      omega
    have hrest : Ascending maxRecordBytes (sequence + 1) (numbered (sequence + 1) items) := by
      have hsorted := h.sorted
      rw [numbered, List.map_cons, List.pairwise_cons] at hsorted
      exact ⟨fun r hr ↦ h.bounded r (List.mem_cons_of_mem _ hr),
        fun r hr ↦ hsorted.1 _ (List.mem_map_of_mem hr), hsorted.2⟩
    have hlater := ih hitems hrest
    rw [hnext] at hlater
    by_cases hshown : covered < sequence + 1
    · have hle : covered.toNat < sequence.toNat + 1 := hnext ▸ UInt64.lt_iff_toNat_lt.mp hshown
      rw [show covered.toNat - (sequence.toNat + 1) = 0 by omega, List.drop_zero] at hlater
      rw [show covered.toNat - sequence.toNat = 0 by omega, List.drop_zero]
      have hfirst : Shown covered ⟨type, sequence + 1, payload, 0, 0⟩ := ⟨htype, hshown⟩
      unfold shownRecords at hlater ⊢
      simp only [numbered, List.filter_cons, hfirst, decide_true, if_true, List.map_cons, hlater]
    · have hle : sequence.toNat + 1 ≤ covered.toNat :=
        hnext ▸ UInt64.le_iff_toNat_le.mp (UInt64.not_lt.mp hshown)
      have hfirst : ¬ Shown covered ⟨type, sequence + 1, payload, 0, 0⟩ :=
        fun hboth ↦ hshown hboth.2
      have hcount : covered.toNat - sequence.toNat = covered.toNat - (sequence.toNat + 1) + 1 := by
        omega
      rw [hcount, List.drop_succ_cons, ← hlater]
      unfold shownRecords
      simp only [numbered, List.filter_cons, hfirst, decide_false]
      rfl

/-! ## Behind an interrupted compaction -/

variable {session session₂ session₃ : StoreSession} {log : Log} {payload : Bytes} {k : Nat}

/-- **An interrupted compaction hides what follows**: behind a compaction that ends inside its base
record and a restart, the next restart loses as many acknowledged records as its snapshot covers
sequences. -/
theorem interrupted_compaction_hides (hb : b.Encodable) (h : Mirrored b recovery expected session log)
    (hpayload : payload.length ≤ b.maxSnapshotBytes.toNat)
    (hregular : (StoreCall.compact (some (.base k)) payload).Regular session) {now now' : UInt64}
    {generated generated' : StoreId} {recovered recovered' : Recovery}
    (hreopen : (StoreSession.reopen now generated).exec
      ((StoreSession.compact (some (.base k)) payload).exec session).2 = (.ok recovered, session₂))
    {items : List (RecordType × Bytes)} (hitems : ∀ item ∈ items, item.1 ≠ .snapshotBase)
    {t : JournalStore} (happend : (appendAll items).exec session₂.store = (.ok (), t))
    (hagain : (StoreSession.reopen now' generated').exec { session₂ with store := t } =
      (.ok recovered', session₃)) :
    recovered = (some payload, .ok []) ∧
      recovered' = (some payload, .ok (items.drop session.store.lastSequence.toNat)) := by
  obtain ⟨contents, h⟩ := h
  obtain ⟨tail, generation, htorn⟩ := h.torn_base hb hpayload hregular
  generalize ((StoreSession.compact (some (.base k)) payload).exec session).2 = session₁
    at hreopen htorn
  obtain ⟨u, o, hopen, rfl, rfl⟩ := StoreSession.reopen_ok hreopen
  have hmax : session₁.store.options.maxRecordBytes = b.maxRecordBytes := by
    rw [htorn.options]
    rfl
  have hsnapshot : (session₁.store.files.snapshot.map snapshotOf).map (·.payload) =
      some payload := by
    rw [htorn.snapshot]
    simp only [Option.map_some, snapshotOf_snapshotBytes]
  -- the first opening finds no record, and begins to number anew
  obtain ⟨⟨outcome, houtcome, hu⟩, hrecovered⟩ := recovery_of_open htorn.sound htorn.journal
    (hmax ▸ htorn.ascending) (htorn.sized hb) (hmax ▸ htorn.tail) hopen
  rw [hsnapshot] at hrecovered
  refine ⟨hrecovered, ?_⟩
  have hfile : u.files.journal = some u.file := by
    rw [hu]
    rfl
  obtain ⟨ht, hascending⟩ := appendAll_ok hfile happend
  have hfirst : u.lastSequence = 0 := by
    rw [hu]
    exact houtcome
  rw [hfirst] at ht hascending
  -- the second opening reads these records against what the snapshot covers
  obtain ⟨v, o', hopen', rfl, rfl⟩ := StoreSession.reopen_ok hagain
  have hsound : u.Sound := by
    rw [hu]
    exact ⟨htorn.sound.usable, htorn.sound.identity, htorn.sound.expected⟩
  have hoptions : u.options.maxRecordBytes = b.maxRecordBytes := by
    rw [hu]
    exact hmax
  have hjournal : t.files.journal = some (t.header ++ (recordBytes (numbered 0 items) ++ [])) := by
    rw [ht, hu, List.append_nil]
    simp [advanced, write, JournalStore.file, JournalStore.recovered, header]
  have hsized : ∀ r ∈ numbered 0 items, Sized r := by
    intro r hr
    have hbound := hascending.bounded r hr
    have hrecord := hb.record
    rw [hoptions] at hbound
    simp only [Sized, JournalRecord.size, recordHeaderSize, recordTrailerSize]
    omega
  have htsound : t.Sound := by
    rw [ht]
    exact hsound.advanced _
  have htascending : Ascending t.options.maxRecordBytes 0 (numbered 0 items) := by
    rw [ht]
    exact hascending
  obtain ⟨-, hrecovered'⟩ := recovery_of_open htsound hjournal htascending hsized (.inl rfl) hopen'
  have hfiles : t.files.snapshot = session₁.store.files.snapshot := by
    rw [ht, hu]
    rfl
  rw [hfiles, hsnapshot, htorn.coveredBy_eq, shownRecords_numbered hitems htascending] at hrecovered'
  exact hrecovered'

/-- A store with two records. -/
def grownSession : StoreSession :=
  (answers StoreCall.onStore [.append none .functionRegistered [1],
    .append none .topologyIngested [2]] { store := createdStore }).2

/-- The session behind a compaction of it that ends inside its base record, and a restart. -/
def restartedSession : StoreSession :=
  ((StoreSession.reopen 5 .empty).exec
    ((StoreSession.compact (some (.base 9)) [3]).exec grownSession).2).2

/-- Three records that are appended there. -/
def laterItems : List (RecordType × Bytes) :=
  [(.policyIngested, [4]), (.functionRegistered, [6]), (.authorityGranted, [9])]

private theorem eq_of_ok {ε α σ : Type} {x : Except ε α × σ} (h : x.1.isOk = true) :
    ∃ a, x = (.ok a, x.2) := by
  obtain ⟨r, s⟩ := x
  cases r with
  | error e => cases h
  | ok a => exact ⟨a, rfl⟩

/-- The first two of three acknowledged records are lost. -/
theorem interrupted_compaction_hides_two :
    ((StoreSession.reopen 6 .empty).exec { restartedSession with
      store := ((appendAll laterItems).exec restartedSession.store).2 }).1 =
        .ok (some [3], .ok [(.authorityGranted, [9])]) := by
  have hb : (({} : Bounds)).Encodable := ⟨by decide, by decide, by decide⟩
  have hcreate : (openStore (storeOptions {} .truncateTornTail .empty) 0
      ⟨_, canonical_hex⟩).exec ⟨{}, {}⟩ = (.ok createdStore, ⟨createdStore.files,
        { classification := .freshStore }⟩) := rfl
  obtain ⟨hguarded, hregular, hreopens, happends, hreopens', hlast⟩ :
      Guarded StoreCall.Regular StoreCall.onStore [.append none .functionRegistered [1],
        .append none .topologyIngested [2]] { store := createdStore } ∧
      (StoreCall.compact (some (.base 9)) [3]).Regular grownSession ∧
      ((StoreSession.reopen 5 .empty).exec
        ((StoreSession.compact (some (.base 9)) [3]).exec grownSession).2).1.isOk = true ∧
      ((appendAll laterItems).exec restartedSession.store).1.isOk = true ∧
      ((StoreSession.reopen 6 .empty).exec { restartedSession with
        store := ((appendAll laterItems).exec restartedSession.store).2 }).1.isOk = true ∧
      grownSession.store.lastSequence.toNat = 2 := by
    decide +kernel
  have hmirrored : Mirrored {} .truncateTornTail .empty grownSession _ :=
    (answers_agree (StoreCall.agree hb) ⟨_, mirrors_created hcreate⟩ hguarded).2
  obtain ⟨recovered, hreopen⟩ : ∃ recovered, (StoreSession.reopen 5 .empty).exec
      ((StoreSession.compact (some (.base 9)) [3]).exec grownSession).2 =
        (.ok recovered, restartedSession) := eq_of_ok hreopens
  obtain ⟨_, happend⟩ := eq_of_ok happends
  obtain ⟨recovered', hreopen'⟩ := eq_of_ok hreopens'
  have hitems : ∀ item ∈ laterItems, item.1 ≠ .snapshotBase := by decide
  have hpayload : ([3] : Bytes).length ≤ ({} : Bounds).maxSnapshotBytes.toNat := by
    decide +kernel
  have hlost := (interrupted_compaction_hides hb hmirrored hpayload hregular hreopen hitems happend
    hreopen').2
  rw [hreopen', hlost, hlast]
  rfl

end OffloadFabric
