import OffloadFabric.Journal.Front

/-!
# Torn tails

What opening and replaying recover of a journal that was cut behind its header
(`src/journal.cpp:88-157,430-579,669-716`).
-/

namespace OffloadFabric

open Lib Lib.Fallible

namespace Journal

/-- A visitor that takes the sequences with a property and fails on every other. -/
def demanding (p : UInt64 → Prop) [DecidablePred p] : RecordVisitor Unit :=
  fun _ sequence _ ↦ if p sequence then pure () else throw ⟨.ok, ""⟩

theorem exec_goThroughAll_demanding (shown : JournalRecord → Prop) [DecidablePred shown]
    (p : UInt64 → Prop) [DecidablePred p] (rs : List JournalRecord) (gone : List Bytes) :
    (∃ replaying, (goThroughAll shown (demanding p) rs).exec ⟨(), gone⟩ = (.ok (), replaying)) ↔
      ∀ r ∈ rs, shown r → p r.sequence := by
  induction rs generalizing gone with
  | nil => simp [goThroughAll]
  | cons r rs ih =>
    rw [goThroughAll, exec_bind]
    by_cases hbad : shown r ∧ ¬ p r.sequence
    · have hone : ∃ e u, (goThrough shown (demanding p) r).exec ⟨(), gone⟩ = (.error e, u) := by
        rw [goThrough, if_pos hbad.1]
        simp only [exec_bind, visit, exec_get, demanding, if_neg hbad.2]
        exact ⟨_, _, rfl⟩
      obtain ⟨e, u, hone⟩ := hone
      rw [hone]
      constructor
      · rintro ⟨_, h⟩
        cases h
      · intro h
        exact absurd (h r (by simp) hbad.1) hbad.2
    · have hone : (goThrough shown (demanding p) r).exec ⟨(), gone⟩ =
          (.ok (), ⟨(), gone ++ [r.bytes]⟩) := by
        rw [goThrough]
        split
        · next hshown =>
          have hp : p r.sequence := by
            by_contra hp
            exact hbad ⟨hshown, hp⟩
          simp only [exec_bind, visit, exec_get, demanding, if_pos hp]
          rfl
        · rfl
      rw [hone]
      simp only [ih, List.mem_cons, forall_eq_or_imp]
      constructor
      · intro h
        refine ⟨fun hshown ↦ ?_, h⟩
        by_contra hp
        exact hbad ⟨hshown, hp⟩
      · exact And.right

end Journal

namespace JournalStore

open Journal

variable {s t u : JournalStore} {rs : List JournalRecord} {n : Nat} {tail : Bytes} {σ : Type}
  {visitor : RecordVisitor σ}

/-- The files of a store with its journal cut. -/
def cutFiles (t : JournalStore) (n : Nat) : StoreFiles :=
  { t.files with journal := some (t.file.take n) }

/-- The store with its journal cut. -/
def cutStore (t : JournalStore) (n : Nat) : JournalStore := { t with files := t.cutFiles n }

/-- The store goes on behind the records it kept: they are what its file holds and its replay
shows, and its counters stand behind them. -/
structure Continues (s : JournalStore) (kept : List JournalRecord) (u : JournalStore) :
    Prop where
  opened : u.closed = false
  file : u.file = s.file ++ recordBytes kept
  bytes : u.bytes = u.file.length
  lastSequence : u.lastSequence = lastOf s.lastSequence kept
  replay : ∀ {σ : Type} (visitor : RecordVisitor σ),
    u.replay visitor = goThroughAll NotBase visitor kept

/-- The journal of a store that wrote records behind another store, cut to its first bytes, is
recovered up to the records wholly contained in them: by the scan, by a replay, and by opening it
under either policy, of which `Refuse` refuses every cut inside a record. -/
structure RecoversPrefix (s t : JournalStore) (rs : List JournalRecord) (n : Nat) : Prop where
  scan : (scanRecords (t.file.take n) t.options.maxRecordBytes).accepted =
    contained (n - headerSize) rs
  undamaged : (scanRecords (t.file.take n) t.options.maxRecordBytes).damaged = false
  torn : (scanRecords (t.file.take n) t.options.maxRecordBytes).torn = true ↔ ¬ OnBoundary rs n
  replay : ∀ {σ : Type} (visitor : RecordVisitor σ),
    (t.cutStore n).replay visitor = goThroughAll NotBase visitor (contained (n - headerSize) rs)
  refuse : ∀ now generated report,
    (∃ u o, t.reopen .refuse (t.cutFiles n) now generated report = (.ok u, o)) ↔ OnBoundary rs n
  reopened : ∀ now generated report u o,
    t.reopen .refuse (t.cutFiles n) now generated report = (.ok u, o) →
      Continues s (contained (n - headerSize) rs) u
  truncate : ∀ now generated report,
    ∃ u o, t.reopen .truncateTornTail (t.cutFiles n) now generated report = (.ok u, o) ∧
      Continues s (contained (n - headerSize) rs) u

/-- What recovering a cut journal takes: a format version of two bytes, a cut the readers read in
full and in which no record is reached whose size wraps, a snapshot file that opens and covers
none of the contained records, and a first record unless the sequences begin at zero. -/
structure Recoverable (s t : JournalStore) (rs : List JournalRecord) (n : Nat) : Prop where
  version : t.options.formatVersion.toNat < 2 ^ 16
  limit : n ≤ (readLimit t.options).toNat
  legible : Legible (n - headerSize) rs
  snapshot : SnapshotReadable t.options t.files.snapshot
  uncovered : ∀ file ∈ t.files.snapshot, ∀ r ∈ contained (n - headerSize) rs,
    NotBase r → (snapshotOf file).covered < r.sequence
  started : s.lastSequence = 0 ∨ contained (n - headerSize) rs ≠ []

theorem lastOf_of_ne_nil (h : rs ≠ []) (sequence sequence' : UInt64) :
    lastOf sequence rs = lastOf sequence' rs := by
  cases rs with
  | nil => exact absurd rfl h
  | cons r rs => rfl

/-- The cut file: the header, the contained records and a part of one. -/
private theorem take_file (hs : Bare s) (rs : List JournalRecord) (hn : headerSize ≤ n) :
    (s.advanced rs).file.take n =
      (s.advanced rs).header ++ (recordBytes rs).take (n - headerSize) := by
  have hlen := hs.length_file
  obtain ⟨bytes, rfl⟩ := Nat.exists_eq_add_of_le hn
  rw [hs.header_advanced, file_advanced, ← hlen, List.take_length_add_append,
    Nat.add_sub_cancel_left]

/-- The opposite case. -/
private theorem kept_refuse {maxRecordBytes : UInt64} {header body : Bytes}
    {kept : List JournalRecord} {boundary : Prop}
    (h : CutScan maxRecordBytes body kept boundary) (hboundary : ¬ boundary) :
    keptBytes .refuse (scanRest maxRecordBytes {} body) (header ++ body) = none := by
  have hrefused : ¬ tailTruncationAllowed .refuse (scanRest maxRecordBytes {} body) := by
    simp [tailTruncationAllowed]
  unfold keptBytes
  rw [if_pos (.inl (h.torn.mpr hboundary)), if_neg hrefused]

/-- The store an opening of the cut journal returns. -/
private def recut (s : JournalStore) (rs : List JournalRecord) (bytes : Nat)
    (policy : RecoveryPolicy) : JournalStore :=
  (s.advanced rs).recovered policy ((s.advanced rs).cutFiles (headerSize + bytes))
    (scanRest s.options.maxRecordBytes {} ((recordBytes rs).take bytes))
    ((s.advanced rs).header ++ recordBytes (contained bytes rs))

private theorem replay_recut {policy : RecoveryPolicy} {bytes : Nat} (hs : Bare s)
    (hcut : CutScan s.options.maxRecordBytes ((recordBytes rs).take bytes) (contained bytes rs)
      (OnBoundary rs (headerSize + bytes)))
    (hlimit : headerSize + bytes ≤ (readLimit s.options).toNat) :
    (recut s rs bytes policy).replay visitor =
      goThroughAll (Shown (coveredBy s.files.snapshot)) visitor (contained bytes rs) := by
  refine replay_recovered (hs.toSound.advanced rs) hcut.sized ?_
  obtain ⟨tail, hfront, -⟩ := hcut.front
  have hlen := congrArg List.length hfront
  rw [List.length_take, List.length_append] at hlen
  rw [List.length_append, hs.header_advanced, hs.length_file]
  change _ ≤ (readLimit s.options).toNat
  omega

/-- It goes on behind the contained records. -/
private theorem continues_recut {policy : RecoveryPolicy} {bytes : Nat} (hs : Bare s)
    (hascending : Ascending s.options.maxRecordBytes s.lastSequence rs)
    (hcut : CutScan s.options.maxRecordBytes ((recordBytes rs).take bytes) (contained bytes rs)
      (OnBoundary rs (headerSize + bytes)))
    (hlimit : headerSize + bytes ≤ (readLimit s.options).toNat)
    (huncovered : ∀ file ∈ s.files.snapshot, ∀ r ∈ contained bytes rs,
      NotBase r → (snapshotOf file).covered < r.sequence)
    (hstarted : s.lastSequence = 0 ∨ contained bytes rs ≠ []) :
    Continues s (contained bytes rs) (recut s rs bytes policy) := by
  have hheader := hs.header_advanced rs
  refine ⟨rfl, ?_, rfl, ?_, fun visitor ↦ ?_⟩
  · rw [← hheader]
    rfl
  · change (scanRest _ _ _).lastSequence = _
    rw [hcut.lastSequence]
    rcases hstarted with hzero | hne
    · rw [hzero]
    · exact lastOf_of_ne_nil hne _ _
  · rw [replay_recut hs hcut hlimit]
    refine goThroughAll_congr fun r hr ↦ shown_coveredBy ?_ fun file hfile ↦ huncovered file hfile r hr
    have habove := hascending.above r ((prefix_contained bytes rs).mem hr)
    exact lt_of_le_of_lt (UInt64.zero_le) habove

/-- Opening the cut journal, under conditions that do not depend on its records. -/
private theorem reopen_cut {policy : RecoveryPolicy} {now : UInt64} {generated : StoreId}
    {report : RecoveryReport} {bytes : Nat} (hs : Bare s) (u : JournalStore) :
    (∃ o, (s.advanced rs).reopen policy ((s.advanced rs).cutFiles (headerSize + bytes)) now
        generated report = (.ok u, o)) ↔
      s.options.formatVersion.toNat < 2 ^ 16 ∧
      (s.file ++ (recordBytes rs).take bytes).length ≤ (readLimit s.options).toNat ∧
      SnapshotReadable s.options s.files.snapshot ∧
      ∃ kept, keptBytes policy (scanRest s.options.maxRecordBytes {} ((recordBytes rs).take bytes))
          (s.file ++ (recordBytes rs).take bytes) = some kept ∧
        u = (s.advanced rs).recovered policy ((s.advanced rs).cutFiles (headerSize + bytes))
          (scanRest s.options.maxRecordBytes {} ((recordBytes rs).take bytes)) kept := by
  have htake := take_file hs rs (Nat.le_add_right headerSize bytes)
  rw [Nat.add_sub_cancel_left] at htake
  have hfile : ((s.advanced rs).cutFiles (headerSize + bytes)).journal =
      some ((s.advanced rs).header ++ (recordBytes rs).take bytes) := by
    rw [cutFiles, htake]
  rw [reopen_iff (hs.toSound.advanced rs) hfile, hs.header_advanced]
  rfl

private theorem file_cutStore (hs : Bare s) (rs : List JournalRecord) (bytes : Nat) :
    ((s.advanced rs).cutStore (headerSize + bytes)).file = s.file ++ (recordBytes rs).take bytes := by
  have htake := take_file hs rs (Nat.le_add_right headerSize bytes)
  rw [Nat.add_sub_cancel_left, hs.header_advanced] at htake
  exact htake

private theorem recoversPrefix_of_recoverable {bytes : Nat} (hs : Bare s)
    (hascending : Ascending s.options.maxRecordBytes s.lastSequence rs)
    (hbytes : bytes ≤ (recordBytes rs).length)
    (h : Recoverable s (s.advanced rs) rs (headerSize + bytes)) :
    RecoversPrefix s (s.advanced rs) rs (headerSize + bytes) := by
  obtain ⟨hversion, hlimit, hlegible, hsnapshot, huncovered, hstarted⟩ := h
  rw [Nat.add_sub_cancel_left] at hlegible huncovered hstarted
  have hcut := cutScan hascending hlegible hbytes
  have hheader := hs.header_advanced rs
  have hlen := hs.length_file
  have hlong : (s.file ++ (recordBytes rs).take bytes).length ≤ (readLimit s.options).toNat := by
    rw [List.length_append, hlen, List.length_take]
    have : headerSize + bytes ≤ (readLimit s.options).toNat := hlimit
    omega
  have hscan : scanRecords ((s.advanced rs).file.take (headerSize + bytes))
      (s.advanced rs).options.maxRecordBytes =
      scanRest s.options.maxRecordBytes {} ((recordBytes rs).take bytes) := by
    have htake := take_file hs rs (Nat.le_add_right headerSize bytes)
    rw [Nat.add_sub_cancel_left] at htake
    rw [htake]
    exact scanRecords_header hs.identity _ _
  have hcontinues (policy : RecoveryPolicy) :
      Continues s (contained bytes rs) (recut s rs bytes policy) :=
    continues_recut hs hascending hcut hlimit huncovered hstarted
  have hopens (policy : RecoveryPolicy) (now : UInt64) (generated : StoreId)
      (report : RecoveryReport)
      (hallowed : OnBoundary rs (headerSize + bytes) ∨ policy = .truncateTornTail)
      (u : JournalStore) :
      (∃ o, (s.advanced rs).reopen policy ((s.advanced rs).cutFiles (headerSize + bytes)) now
        generated report = (.ok u, o)) ↔ u = recut s rs bytes policy := by
    rw [reopen_cut hs u, kept_of_cutScan policy hcut hlen hallowed]
    constructor
    · rintro ⟨-, -, -, kept, hkept, rfl⟩
      rw [← hheader] at hkept
      cases hkept
      rfl
    · rintro rfl
      exact ⟨hversion, hlong, hsnapshot, _, rfl, by rw [← hheader]; rfl⟩
  refine ⟨?_, ?_, ?_, fun visitor ↦ ?_, fun now generated report ↦ ?_, ?_, ?_⟩
  · rw [hscan, Nat.add_sub_cancel_left]
    exact hcut.accepted
  · rw [hscan]
    exact hcut.damaged
  · rw [hscan]
    exact hcut.torn
  · obtain ⟨tail, hfront, hstops⟩ := hcut.front
    have hfile := file_cutStore hs rs bytes
    have hread : ((s.advanced rs).cutStore (headerSize + bytes)).file.length ≤
        (readLimit ((s.advanced rs).cutStore (headerSize + bytes)).options).toNat := by
      rw [hfile]
      exact hlong
    have hopened : ((s.advanced rs).cutStore (headerSize + bytes)).closed = false := hs.opened
    rw [hfront] at hfile
    rw [Nat.add_sub_cancel_left, replay_records hopened hlen hfile hread hcut.sized hstops]
    refine goThroughAll_congr fun r hr ↦ ⟨fun hshown ↦ hshown.1, fun hbase ↦ ⟨hbase, ?_⟩⟩
    exact lt_of_le_of_lt hs.covers
      (hascending.above r ((prefix_contained bytes rs).mem hr))
  · constructor
    · rintro ⟨u, hu⟩
      by_contra hboundary
      obtain ⟨-, -, -, kept, hkept, -⟩ := (reopen_cut hs u).mp hu
      rw [kept_refuse hcut hboundary] at hkept
      cases hkept
    · intro hboundary
      exact ⟨_, (hopens .refuse now generated report (.inl hboundary) _).mpr rfl⟩
  · intro now generated report u o hu
    have hboundary : OnBoundary rs (headerSize + bytes) := by
      by_contra hboundary
      obtain ⟨-, -, -, kept, hkept, -⟩ := (reopen_cut hs u).mp ⟨o, hu⟩
      rw [kept_refuse hcut hboundary] at hkept
      cases hkept
    rw [(hopens .refuse now generated report (.inl hboundary) u).mp ⟨o, hu⟩,
      Nat.add_sub_cancel_left]
    exact hcontinues .refuse
  · intro now generated report
    obtain ⟨o, hu⟩ := (hopens .truncateTornTail now generated report (.inr rfl) _).mpr rfl
    refine ⟨_, o, hu, ?_⟩
    rw [Nat.add_sub_cancel_left]
    exact hcontinues .truncateTornTail

private theorem recoverable_of_recoversPrefix {bytes : Nat} (hs : Bare s)
    (hascending : Ascending s.options.maxRecordBytes s.lastSequence rs)
    (hbytes : bytes ≤ (recordBytes rs).length)
    (h : RecoversPrefix s (s.advanced rs) rs (headerSize + bytes)) :
    Recoverable s (s.advanced rs) rs (headerSize + bytes) := by
  have hlen := hs.length_file
  obtain ⟨u, o, hopen, hcontinues⟩ := h.truncate 0 .empty {}
  obtain ⟨hversion, hlimit, hsnapshot, kept, hkept, hu⟩ := (reopen_cut hs u).mp ⟨o, hopen⟩
  have hfits : headerSize + bytes ≤ (readLimit s.options).toNat := by
    rw [List.length_append, hlen, List.length_take] at hlimit
    omega
  have hlegible : Legible bytes rs := by
    by_contra hillegible
    have hfile := file_cutStore hs rs bytes
    have hsize : ((s.advanced rs).cutStore (headerSize + bytes)).file.length =
        headerSize + bytes := by
      rw [hfile, List.length_append, hlen, List.length_take]
      omega
    have hopened : ((s.advanced rs).cutStore (headerSize + bytes)).closed = false := hs.opened
    have hdrop : ((s.advanced rs).cutStore (headerSize + bytes)).file.drop headerSize =
        (recordBytes rs).take bytes := by
      rw [hfile, ← hlen, List.drop_left]
    have hreplay := h.replay accepting
    rw [replay_eq hopened (by omega) (by rw [hsize]; exact hfits), hdrop, hsize,
      Nat.add_sub_cancel_left] at hreplay
    have hexec := exec_goThroughAll_accepting NotBase (contained bytes rs) []
    rw [← hreplay] at hexec
    exact replayFrom_illegible hbytes hillegible (Nat.le_add_left _ _) hexec rfl
  have hcut := cutScan hascending hlegible hbytes
  rw [kept_of_cutScan .truncateTornTail hcut hlen (.inr rfl)] at hkept
  cases hkept
  have hrecut : u = recut s rs bytes .truncateTornTail := by
    rw [hu, recut, hs.header_advanced]
  rw [Nat.add_sub_cancel_left, hrecut] at hcontinues
  refine ⟨hversion, hfits, ?_, hsnapshot, ?_, ?_⟩
  · rw [Nat.add_sub_cancel_left]
    exact hlegible
  · intro file hfile r hr hbase
    rw [Nat.add_sub_cancel_left] at hr
    -- a visitor that fails on a covered sequence is shown none by the recovered store
    have hcovered : coveredBy s.files.snapshot = (snapshotOf file).covered := by
      rw [show s.files.snapshot = some file from hfile]
      rfl
    have hreplay := hcontinues.replay (demanding fun q ↦ (snapshotOf file).covered < q)
    rw [replay_recut hs hcut hfits, hcovered] at hreplay
    have hshown := (exec_goThroughAll_demanding (Shown (snapshotOf file).covered)
      (fun q ↦ (snapshotOf file).covered < q) (contained bytes rs) []).mpr
        fun r _ hshown ↦ hshown.2
    rw [hreplay, exec_goThroughAll_demanding] at hshown
    exact hshown r hr hbase
  · rw [Nat.add_sub_cancel_left]
    by_contra hnone
    obtain ⟨hnonzero, hempty⟩ := not_or.mp hnone
    have hlast := hcontinues.lastSequence
    rw [not_not.mp hempty] at hlast
    have hzero := hcut.lastSequence
    rw [not_not.mp hempty] at hzero
    exact hnonzero (hlast.symm.trans hzero)

private def sampleId : StoreId := ⟨ascii "0123456789abcdef0123456789abcdef", canonical_hex⟩

private def created : JournalStore := newStore sampleId

private theorem bare_created : Bare created := bare_newStore rfl

/-- A store whose compaction has replaced its journal behind a snapshot of five records. -/
private def compacted : JournalStore := ((install [] 5 1).exec created).2

private theorem bare_compacted : Bare compacted := by
  have hinstall : (install [] 5 1).exec created = (.ok (), compacted) := rfl
  exact bare_of_install bare_created.toSound hinstall

/-- The base record a compaction appends. -/
private def baseItem : RecordType × Bytes := (.snapshotBase, le 8 5 ++ le 8 1 ++ le 8 0)

private theorem append_baseItem :
    (appendAll [baseItem]).exec compacted =
      (.ok (), compacted.advanced (numbered 5 [baseItem])) := by
  have hadmitted : compacted.admission baseItem.2 = .ok () := by decide
  rw [appendAll, baseItem, exec_bind, exec_append]
  rw [baseItem] at hadmitted
  rw [hadmitted]
  rfl

end JournalStore

end OffloadFabric
