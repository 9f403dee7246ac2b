import OffloadFabric.Fabric.Kept

/-!
# Bounded growth

The limits on a store (`src/bounds.cpp:42-54`), the commit that compacts before it appends
(`src/fabric.cpp:1447-1502`) and the hard cap inside the append (`src/journal.cpp:610-667`): under
which bounds no commit is refused for a size and the journal stays readable.
-/

namespace OffloadFabric

open Lib Lib.Fallible FabricM Wire

/-- The refusals for a size. -/
def Error.IsSizeRefusal (e : Error) : Prop :=
  e.code = .compactionRequired ∨ e.code = .oversizedInput

namespace Bounds

variable {b : Bounds}

/-- The longest journal that `open` and `replay` read, `src/journal.cpp:430-432,674-676`. -/
def readLimit (b : Bounds) : Nat := (b.maxJournalBytes * 2 + b.maxRecordBytes * 4).toNat

/-- The longest journal that `append` makes: its hard cap, `src/journal.cpp:629-641`, or the header
where the cap overflows and no record is taken. -/
def hardCap (b : Bounds) : Nat :=
  if b.maxJournalBytes.toNat * 2 < 2 ^ 64 then b.maxJournalBytes.toNat * 2 else 64

/-- Bounds whose read limit, computed in 64 bits, is not below the longest journal. -/
def Readable (b : Bounds) : Prop := b.hardCap ≤ b.readLimit

instance (b : Bounds) : Decidable b.Readable := inferInstanceAs (Decidable (_ ≤ _))

/-- Bounds whose soft limit has room for the overhead of the longest record, and from which the
read limit is computed without a wrap. -/
structure Roomy (b : Bounds) : Prop where
  record : b.maxRecordBytes.toNat + 24 ≤ b.maxJournalBytes.toNat
  limit : b.maxJournalBytes.toNat * 2 + b.maxRecordBytes.toNat * 4 < 2 ^ 64

theorem Roomy.readable (h : b.Roomy) : b.Readable := by
  have hlimit := h.limit
  unfold Readable hardCap readLimit
  rw [if_pos (by omega), UInt64.toNat_add, UInt64.toNat_mul, UInt64.toNat_mul]
  simp only [UInt64.reduceToNat]
  omega

/-- What the validation of bounds asks of the record, journal and snapshot limits. -/
theorem validate_persistence (h : b.validate = .ok ()) :
    256 ≤ b.maxRecordBytes.toNat ∧ b.maxRecordBytes.toNat ≤ b.maxJournalBytes.toNat ∧
      b.maxRecordBytes.toNat ≤ b.maxSnapshotBytes.toNat := by
  unfold validate at h
  obtain ⟨-, -, -, -, -, -, hrecord, hjournal, hsnapshot, -⟩ := by
    simpa only [require_bind_eq_ok] using h
  exact ⟨hrecord, hjournal, hsnapshot⟩

theorem snapshot_pos (h : b.validate = .ok ()) : 0 < b.maxSnapshotBytes := by
  obtain ⟨hrecord, -, hsnapshot⟩ := validate_persistence h
  apply UInt64.lt_iff_toNat_lt.mpr
  change 0 < _
  omega

end Bounds

/-- The encoded state of a snapshot whose envelope fits the snapshot limit. -/
def SnapshotFits (b : Bounds) (s : FabricState) (payload : Bytes) : Prop :=
  (encState s).encode b.maxSnapshotBytes.toNat = .ok payload ∧
    payload.length + 36 ≤ b.maxSnapshotBytes.toNat

/-- The length of an encoded state fits its field, and the limit of its envelope is not wrapped
below the envelope, `src/fabric.cpp:1459`. -/
def Enveloped (b : Bounds) (payload : Bytes) : Prop :=
  payload.length < 2 ^ 32 ∧
    payload.length + 36 ≤ (UInt64.ofNat payload.length + 64 + b.maxCanonicalBytes).toNat

/-- A journal that is not compacted before the next record has room for the longest one under the
hard cap, and one that is can be compacted. -/
structure HasRoom (b : Bounds) (bytes : Nat) (snapshot : Bytes) : Prop where
  kept : bytes ≤ b.maxJournalBytes.toNat → b.maxJournalBytes.toNat * 2 < 2 ^ 64 →
    bytes + (b.maxRecordBytes.toNat + 24) ≤ b.maxJournalBytes.toNat * 2
  compacted : b.maxJournalBytes.toNat < bytes → Enveloped b snapshot

/-- The store is not wedged: a commit is not refused for a size, the journal can be read again and
a compaction leaves it below its soft limit. -/
structure Unwedged (c : FabricConfig) (m : Impl) : Prop where
  commits : ∀ type payload, payload.length ≤ c.bounds.maxRecordBytes.toNat → ∀ e,
    ((Fabric.commit c type payload).exec (m.facing [])).1 = .error e → ¬ e.IsSizeRefusal
  readable : m.log.bytes ≤ c.bounds.readLimit
  compacted : m.storeOpen = true → ((Fabric.compactLocked c).exec (m.facing [])).1 = .ok () →
    ((Fabric.compactLocked c).exec (m.facing [])).2.log.bytes < c.bounds.maxJournalBytes.toNat

namespace Log

variable {b : Bounds}

/-- The journal holds its header only, or is not longer than a hard cap that does not overflow. -/
def Capped (b : Bounds) (l : Log) : Prop :=
  l.bytes ≤ 64 ∨ b.maxJournalBytes.toNat * 2 < 2 ^ 64 ∧ l.bytes ≤ b.maxJournalBytes.toNat * 2

/-- The size checks of an append pass under a hard cap that does not overflow; they refuse for a
size over such a cap, and otherwise for an overflow. -/
theorem admission_cases (b : Bounds) (bytes payload : Nat) :
    admission b bytes payload = .ok () ∧ b.maxJournalBytes.toNat * 2 < 2 ^ 64 ∧
        bytes + (payload + 24) ≤ b.maxJournalBytes.toNat * 2 ∨
      ∃ e, admission b bytes payload = .error e ∧ (e.IsSizeRefusal ↔
        b.maxJournalBytes.toNat * 2 < bytes + (payload + 24) ∧
          bytes + (payload + 24) < 2 ^ 64) := by
  have hoverflow (detail : String) : ¬ Error.IsSizeRefusal ⟨.arithmeticOverflow, detail⟩ := by
    simp [Error.IsSizeRefusal]
  unfold admission require
  by_cases hrecord : payload + 24 < 2 ^ 64
  · rw [if_pos hrecord]
    by_cases hcap : b.maxJournalBytes.toNat * 2 < 2 ^ 64
    · rw [if_pos hcap]
      by_cases hjournal : bytes + (payload + 24) < 2 ^ 64
      · rw [if_pos hjournal]
        by_cases hroom : bytes + (payload + 24) ≤ b.maxJournalBytes.toNat * 2
        · rw [if_pos hroom]
          exact .inl ⟨rfl, hcap, hroom⟩
        · rw [if_neg hroom]
          exact .inr ⟨_, rfl, fun _ ↦ ⟨by omega, hjournal⟩, fun _ ↦ .inl rfl⟩
      · rw [if_neg hjournal]
        exact .inr ⟨_, rfl, fun h ↦ absurd h (hoverflow _), fun h ↦ absurd h.2 hjournal⟩
    · rw [if_neg hcap]
      exact .inr ⟨_, rfl, fun h ↦ absurd h (hoverflow _), by omega⟩
  · rw [if_neg hrecord]
    exact .inr ⟨_, rfl, fun h ↦ absurd h (hoverflow _), by omega⟩

/-- An append on a log is refused and leaves it, or is under the cap and meets its fault. -/
theorem append_cases (b : Bounds) (type : RecordType) (payload : Bytes) (l : Log) :
    ((append b type payload).exec l).2 = l ∧ (payload.length ≤ b.maxRecordBytes.toNat →
        ∃ e, ((append b type payload).exec l).1 = .error e ∧ (e.IsSizeRefusal ↔
          b.maxJournalBytes.toNat * 2 < l.bytes + (payload.length + 24) ∧
            l.bytes + (payload.length + 24) < 2 ^ 64)) ∨
      (b.maxJournalBytes.toNat * 2 < 2 ^ 64 ∧
        l.bytes + (payload.length + 24) ≤ b.maxJournalBytes.toNat * 2) ∧ ∃ faults,
          ((append b type payload).exec l = (.error unavailable, { l with faults }) ∨
            (append b type payload).exec l = (.ok (), { l with
              faults
              records := l.records ++ [(type, payload)]
              bytes := l.bytes + (payload.length + 24) })) := by
  unfold append
  rw [exec_bind, exec_get]
  simp only [exec_bind, exec_check]
  by_cases hsize : payload.length ≤ b.maxRecordBytes.toNat
  · simp only [hsize, if_true, exec_liftExcept, forall_const]
    rcases admission_cases b l.bytes payload.length with ⟨hadmitted, hroom⟩ | ⟨e, hadmitted, hcode⟩
    · obtain ⟨fault, faults, hfault⟩ := takeFault_same l
      simp only [hadmitted, hfault]
      refine .inr ⟨hroom, faults, ?_⟩
      split
      · exact .inr rfl
      · exact .inl rfl
    · simp only [hadmitted]
      exact .inl ⟨trivial, e, rfl, hcode⟩
  · simp only [hsize, if_false]
    exact .inl ⟨trivial, fun h ↦ h.elim⟩

/-- The cap inside the append holds through every durable call. -/
theorem durable_capped : Durable b (Capped b) where
  append type payload := by
    intro l hl
    rcases append_cases b type payload l with ⟨hsame, -⟩ | ⟨⟨hcap, hroom⟩, faults, hlost | hstored⟩
    · rwa [hsame]
    · rw [hlost]
      exact hl
    · rw [hstored]
      exact .inr ⟨hcap, hroom⟩
  compact payload := by
    intro l hl
    unfold compact
    simp only [exec_bind, exec_check]
    by_cases hsize : payload.length ≤ b.maxSnapshotBytes.toNat
    · simp only [hsize, if_true]
      obtain ⟨fault, faults, hfault⟩ := takeFault_same l
      simp only [hfault]
      cases fault with
      | lost => exact hl
      | installed => exact hl
      | emptied => exact .inl le_rfl
      | none =>
        simp only [exec_bind, exec_modify, exec_liftExcept]
        rcases admission_cases b 64 24 with ⟨hadmitted, hcap, hroom⟩ | ⟨e, hadmitted, -⟩
        · rw [hadmitted]
          exact .inr ⟨hcap, hroom⟩
        · rw [hadmitted]
          exact .inl le_rfl
    · simp only [hsize, if_false]
      exact hl
  reopen := by
    unfold reopen
    refine .bind .get fun l ↦ .bind (.check _ _) fun _ ↦ .bind ?_ fun fault ↦ ?_
    · intro l hl
      obtain ⟨fault, faults, hfault⟩ := takeFault_same l
      rw [hfault]
      exact hl
    · exact .bind (.check _ _) fun _ ↦ .bind (.check _ _) fun _ ↦ .bind (.check _ _) fun _ ↦
        .bind (.check _ _) fun _ ↦ .modify fun _ hl ↦ hl
  faults l faults h := h

/-- A compaction that no fault meets empties the journal and asks for room for the base record. -/
theorem compact_fine {payload : Bytes} {l : Log} (hfaults : l.faults = [])
    (hsize : payload.length ≤ b.maxSnapshotBytes.toNat) :
    (∃ l', l'.bytes = 112 ∧ (compact b payload).exec l = (.ok (), l')) ∨
      ∃ e, admission b 64 24 = .error e ∧ ((compact b payload).exec l).1 = .error e := by
  unfold compact takeFault
  simp only [exec_bind, exec_check, hsize, if_true, exec_get, hfaults, exec_pure, exec_modify,
    exec_liftExcept]
  cases hadmitted : admission b 64 24 with
  | ok u => exact .inl ⟨_, rfl, rfl⟩
  | error e => exact .inr ⟨e, rfl, rfl⟩

/-- A compaction that succeeded left the base record in the journal. -/
theorem bytes_of_compact {payload : Bytes} {l l' : Log}
    (h : (compact b payload).exec l = (.ok (), l')) : l'.bytes = 112 := by
  unfold compact at h
  obtain ⟨-, h⟩ := exec_check_bind_ok h
  obtain ⟨fault, l₁, -, h⟩ := exec_bind_ok h
  cases fault with
  | lost => cases h
  | installed => cases h
  | emptied => cases h
  | none =>
    obtain ⟨_, l₂, -, h⟩ := exec_bind_ok h
    obtain ⟨_, l₃, -, h⟩ := exec_bind_ok h
    cases h
    rfl

end Log

/-! ## Snapshots -/

/-- The writer of an envelope, `src/fabric.cpp:1459-1467`. -/
def envelopeWriter (payload : Bytes) : Writer := do
  Writer.text payload
  Writer.digest (sha256 payload)

/-- An envelope is written, in 36 bytes more than its payload, or refused as oversized. -/
theorem envelopeWriter_cases (payload : Bytes) (limit : Nat) :
    payload.length < 2 ^ 32 ∧ payload.length + 36 ≤ limit ∧
        (∃ envelope, (envelopeWriter payload).encode limit = .ok envelope ∧
          envelope.length = payload.length + 36) ∨
      ¬ (payload.length < 2 ^ 32 ∧ payload.length + 36 ≤ limit) ∧
        ∃ e, (envelopeWriter payload).encode limit = .error e ∧ e.IsSizeRefusal := by
  have hsize : (le 4 (UInt32.ofNat payload.length).toNat).length = 4 := length_le 4 _
  have hdigest : (sha256 payload).bytes.length = 32 := (sha256 payload).size
  unfold envelopeWriter Writer.encode Writer.text Writer.digest Writer.u32
  by_cases hshort : payload.length < 2 ^ 32
  · rw [if_pos hshort]
    simp only [Coder.run_bind, Writer.run_append, List.nil_append, List.length_nil, hsize]
    by_cases hhead : 0 + 4 ≤ limit
    · rw [if_pos hhead]
      simp only [hsize]
      by_cases hbody : 4 + payload.length ≤ limit
      · rw [if_pos hbody]
        simp only [List.length_append, hsize, hdigest]
        by_cases hfull : 4 + payload.length + 32 ≤ limit
        · rw [if_pos hfull]
          refine .inl ⟨hshort, by omega, _, rfl, ?_⟩
          simp only [List.length_append, hsize, hdigest]
          omega
        · rw [if_neg hfull]
          exact .inr ⟨by omega, _, rfl, .inr rfl⟩
      · rw [if_neg hbody]
        exact .inr ⟨by omega, _, rfl, .inr rfl⟩
    · rw [if_neg hhead]
      exact .inr ⟨by omega, _, rfl, .inr rfl⟩
  · rw [if_neg hshort]
    exact .inr ⟨fun h ↦ hshort h.1, _, rfl, .inr rfl⟩

section

variable {b : Bounds} {s : FabricState} {payload : Bytes}

/-- The envelope of an encoded state, where the snapshot limit is used. -/
theorem snapshotEnvelope_eq (hpositive : 0 < b.maxSnapshotBytes)
    (hencoded : (encState s).encode b.maxSnapshotBytes.toNat = .ok payload) :
    Fabric.snapshotEnvelope b s = do
      let envelope ← (envelopeWriter payload).encode
        (UInt64.ofNat payload.length + 64 + b.maxCanonicalBytes).toNat
      require (envelope.length ≤ b.maxSnapshotBytes.toNat)
        ⟨.oversizedInput, "snapshot exceeds the configured bound"⟩
      return envelope := by
  unfold Fabric.snapshotEnvelope
  rw [if_pos hpositive]
  simp only [hencoded]
  rfl

/-- The envelope of a snapshot that fits is written, where its own limits do not wrap. -/
theorem snapshotEnvelope_of_fits (hpositive : 0 < b.maxSnapshotBytes)
    (hfits : SnapshotFits b s payload) (henveloped : Enveloped b payload) :
    ∃ envelope, Fabric.snapshotEnvelope b s = .ok envelope ∧
      envelope.length ≤ b.maxSnapshotBytes.toNat := by
  rw [snapshotEnvelope_eq hpositive hfits.1]
  rcases envelopeWriter_cases payload
    (UInt64.ofNat payload.length + 64 + b.maxCanonicalBytes).toNat with
    ⟨-, -, envelope, hwritten, hlength⟩ | ⟨hwrapped, -⟩
  · have hsize : envelope.length ≤ b.maxSnapshotBytes.toNat := by
      rw [hlength]
      exact hfits.2
    refine ⟨envelope, ?_, hsize⟩
    apply bind_eq_ok.mpr ⟨envelope, hwritten, _⟩
    exact require_bind_eq_ok.mpr ⟨hsize, rfl⟩
  · exact absurd henveloped hwrapped

/-- The envelope of a snapshot is refused as oversized where its own limits wrap. -/
theorem snapshotEnvelope_of_not_enveloped (hpositive : 0 < b.maxSnapshotBytes)
    (hfits : SnapshotFits b s payload) (h : ¬ Enveloped b payload) :
    ∃ e, Fabric.snapshotEnvelope b s = .error e ∧ e.IsSizeRefusal := by
  rw [snapshotEnvelope_eq hpositive hfits.1]
  rcases envelopeWriter_cases payload
    (UInt64.ofNat payload.length + 64 + b.maxCanonicalBytes).toNat with
    ⟨hshort, hlimit, -⟩ | ⟨-, e, he, hcode⟩
  · exact absurd ⟨hshort, hlimit⟩ h
  · refine ⟨e, ?_, hcode⟩
    rw [he]
    rfl

end

/-! ## Commits -/

namespace Fabric

variable {c : FabricConfig} {m : Impl} {type : RecordType} {payload snapshot : Bytes}

theorem exec_commit (hopen : m.storeOpen = true) :
    (commit c type payload).exec m =
      if c.bounds.maxJournalBytes.toNat < m.log.bytes then
        (do compactLocked c; onLog (Log.append c.bounds type payload) : FabricM Unit).exec m
      else (onLog (Log.append c.bounds type payload)).exec m := by
  unfold commit
  rw [exec_bind, exec_get]
  simp only [hopen, if_true]
  split
  · rfl
  · rfl

/-- A compaction that no fault meets and whose envelope is written enters the base record, or is
refused for an overflow. -/
theorem exec_compactLocked (hvalid : c.bounds.validate = .ok ()) (hopen : m.storeOpen = true)
    (hfaults : m.log.faults = []) (hfits : SnapshotFits c.bounds m.state snapshot)
    (henveloped : Enveloped c.bounds snapshot) :
    (∃ m', (compactLocked c).exec m = (.ok (), m') ∧ m'.log.bytes = 112) ∨
      ∃ e m', (compactLocked c).exec m = (.error e, m') ∧ ¬ e.IsSizeRefusal := by
  obtain ⟨hrecord, hjournal, -⟩ := Bounds.validate_persistence hvalid
  obtain ⟨envelope, henvelope, hsize⟩ :=
    snapshotEnvelope_of_fits (Bounds.snapshot_pos hvalid) hfits henveloped
  unfold compactLocked
  simp only [exec_bind, exec_get, hopen, if_true, exec_liftExcept, henvelope, exec_onLog]
  rcases Log.compact_fine hfaults hsize with ⟨l, hbytes, hdone⟩ | ⟨e, hadmitted, hrefused⟩
  · rw [hdone]
    exact .inl ⟨_, rfl, hbytes⟩
  · refine .inr ⟨e, _, by rw [hrefused], ?_⟩
    rcases Log.admission_cases c.bounds 64 24 with ⟨hok, -⟩ | ⟨e', he', hcode⟩
    · rw [hadmitted] at hok
      cases hok
    · rw [hadmitted] at he'
      cases he'
      intro hrefusal
      have hover := (hcode.mp hrefusal).1
      omega

/-- A compaction whose envelope is refused is refused. -/
theorem compactLocked_refused (hvalid : c.bounds.validate = .ok ()) (hopen : m.storeOpen = true)
    (hfits : SnapshotFits c.bounds m.state snapshot) (h : ¬ Enveloped c.bounds snapshot) :
    ∃ e, (compactLocked c).exec m = (.error e, m) ∧ e.IsSizeRefusal := by
  obtain ⟨e, he, hcode⟩ := snapshotEnvelope_of_not_enveloped
    (Bounds.snapshot_pos hvalid) hfits h
  refine ⟨e, ?_, hcode⟩
  unfold compactLocked
  simp only [exec_bind, exec_get, hopen, if_true, exec_liftExcept, he]

/-- An append is refused for a size exactly over a hard cap that does not overflow. -/
theorem append_refuses_iff (hsize : payload.length ≤ c.bounds.maxRecordBytes.toNat) :
    (∃ e, ((onLog (Log.append c.bounds type payload)).exec m).1 = .error e ∧ e.IsSizeRefusal) ↔
      c.bounds.maxJournalBytes.toNat * 2 < m.log.bytes + (payload.length + 24) ∧
        m.log.bytes + (payload.length + 24) < 2 ^ 64 := by
  rw [exec_onLog]
  rcases Log.append_cases c.bounds type payload m.log with
    ⟨-, hrefused⟩ | ⟨⟨-, hroom⟩, faults, hlost | hstored⟩
  · obtain ⟨e, he, hcode⟩ := hrefused hsize
    rw [← hcode]
    simp only [he, Except.error.injEq, exists_eq_left']
  · rw [hlost]
    constructor
    · rintro ⟨e, he, hcode⟩
      cases he
      simp [Error.IsSizeRefusal, Log.unavailable] at hcode
    · omega
  · rw [hstored]
    constructor
    · rintro ⟨e, he, -⟩
      cases he
    · omega

/-- Where the journal has room, no commit is refused for a size. -/
theorem commit_of_hasRoom (hvalid : c.bounds.validate = .ok ()) (hfaults : m.log.faults = [])
    (hfits : SnapshotFits c.bounds m.state snapshot)
    (hroom : m.storeOpen = true → HasRoom c.bounds m.log.bytes snapshot)
    (hsize : payload.length ≤ c.bounds.maxRecordBytes.toNat) {e : Error}
    (he : ((commit c type payload).exec m).1 = .error e) : ¬ e.IsSizeRefusal := by
  obtain ⟨hrecord, hjournal, -⟩ := Bounds.validate_persistence hvalid
  intro hcode
  cases hopen : m.storeOpen with
  | false =>
    unfold commit at he
    rw [exec_bind, exec_get] at he
    simp only [hopen] at he
    cases he
  | true =>
    obtain ⟨hkept, hcompacted⟩ := hroom hopen
    rw [exec_commit hopen] at he
    by_cases hover : c.bounds.maxJournalBytes.toNat < m.log.bytes
    · rw [if_pos hover, exec_bind] at he
      rcases exec_compactLocked hvalid hopen hfaults hfits (hcompacted hover) with
        ⟨m', hdone, hbytes⟩ | ⟨e', m', hrefused, hother⟩
      · rw [hdone] at he
        have hfull := (append_refuses_iff hsize).mp ⟨e, he, hcode⟩
        omega
      · rw [hrefused] at he
        cases he
        exact hother hcode
    · rw [if_neg hover] at he
      have hfull := (append_refuses_iff hsize).mp ⟨e, he, hcode⟩
      have hspace := hkept (by omega) (by omega)
      omega

/-- Where no commit is refused for a size, the journal has room. -/
theorem hasRoom_of_commit (hvalid : c.bounds.validate = .ok ()) (hopen : m.storeOpen = true)
    (hfits : SnapshotFits c.bounds m.state snapshot)
    (h : ∀ type payload, payload.length ≤ c.bounds.maxRecordBytes.toNat → ∀ e,
      ((commit c type payload).exec m).1 = .error e → ¬ e.IsSizeRefusal) :
    HasRoom c.bounds m.log.bytes snapshot where
  kept hsoft hcap := by
    obtain ⟨hrecord, hjournal, -⟩ := Bounds.validate_persistence hvalid
    by_contra hfull
    -- the payload that takes the journal one byte over its cap
    let n := c.bounds.maxJournalBytes.toNat * 2 + 1 - (m.log.bytes + 24)
    have hlength : (List.replicate n (0 : UInt8)).length = n := List.length_replicate
    have hsize : (List.replicate n (0 : UInt8)).length ≤ c.bounds.maxRecordBytes.toNat := by
      omega
    obtain ⟨e, he, hcode⟩ := (@append_refuses_iff c m .requestRecorded _ hsize).mpr (by omega)
    apply h .requestRecorded _ hsize e ?_ hcode
    rw [exec_commit hopen, if_neg (by omega)]
    exact he
  compacted hover := by
    by_contra hwrapped
    obtain ⟨e, he, hcode⟩ := compactLocked_refused hvalid hopen hfits hwrapped
    apply h .requestRecorded [] (Nat.zero_le _) e ?_ hcode
    rw [exec_commit hopen, if_pos hover, exec_bind, he]

/-- A compaction that succeeds leaves the journal below its soft limit. -/
theorem bytes_of_compactLocked (hvalid : c.bounds.validate = .ok ()) (hopen : m.storeOpen = true)
    (h : ((compactLocked c).exec m).1 = .ok ()) :
    ((compactLocked c).exec m).2.log.bytes < c.bounds.maxJournalBytes.toNat := by
  obtain ⟨hrecord, hjournal, -⟩ := Bounds.validate_persistence hvalid
  obtain ⟨m', hm'⟩ : ∃ m', (compactLocked c).exec m = (.ok (), m') := ⟨_, Prod.ext h rfl⟩
  rw [hm']
  unfold compactLocked at hm'
  rw [exec_bind, exec_get] at hm'
  simp only [hopen, if_true] at hm'
  obtain ⟨envelope, m₁, hwritten, hlog⟩ := exec_bind_ok hm'
  obtain ⟨-, rfl⟩ := exec_liftExcept_ok hwritten
  rw [exec_onLog] at hlog
  obtain ⟨hcompact, rfl⟩ := Prod.mk.inj hlog
  have hbytes : ((Log.compact c.bounds envelope).exec m₁.log).2.bytes = 112 :=
    Log.bytes_of_compact (Prod.ext hcompact rfl)
  simp only
  omega

end Fabric

/-! ## Runs -/

variable {c : FabricConfig} {steps : List Step} {snapshot : Bytes}

/-- The journal of a run is not longer than what can be read. -/
theorem run_readable (hvalid : c.bounds.validate = .ok ()) (hread : c.bounds.Readable)
    (steps : List Step) : (run c steps).log.bytes ≤ c.bounds.readLimit := by
  obtain ⟨hrecord, hjournal, -⟩ := Bounds.validate_persistence hvalid
  have hcapped : (run c steps).log.Capped c.bounds :=
    runFrom_keeps Log.durable_capped (.inl le_rfl) steps
  apply le_trans ?_ hread
  unfold Bounds.hardCap
  unfold Log.Capped at hcapped
  split <;> omega

/-- A store that is not wedged has room. -/
theorem hasRoom_of_unwedged {m : Impl} (hvalid : c.bounds.validate = .ok ())
    (hopen : m.storeOpen = true) (hfits : SnapshotFits c.bounds m.state snapshot)
    (h : Unwedged c m) : HasRoom c.bounds m.log.bytes snapshot :=
  Fabric.hasRoom_of_commit (m := m.facing []) hvalid hopen hfits h.commits

/-- A run that ends with room is not wedged. -/
theorem unwedged_of_hasRoom (hvalid : c.bounds.validate = .ok ()) (hread : c.bounds.Readable)
    (hfits : SnapshotFits c.bounds (run c steps).state snapshot)
    (hroom : (run c steps).storeOpen = true →
      HasRoom c.bounds (run c steps).log.bytes snapshot) : Unwedged c (run c steps) where
  commits _ _ hsize _ he :=
    Fabric.commit_of_hasRoom (m := (run c steps).facing []) hvalid rfl hfits hroom hsize he
  readable := run_readable hvalid hread steps
  compacted hopen h := Fabric.bytes_of_compactLocked hvalid hopen h

/-- A state with an encoding of a length that fits has a snapshot that fits. -/
theorem exists_snapshotFits {b : Bounds} {s : FabricState}
    (h : ∃ p ∈ ((encState s).encode b.maxSnapshotBytes.toNat).toOption,
      p.length + 36 ≤ b.maxSnapshotBytes.toNat) : ∃ p, SnapshotFits b s p := by
  obtain ⟨p, hp, hlength⟩ := h
  refine ⟨p, ?_, hlength⟩
  cases hencoded : (encState s).encode b.maxSnapshotBytes.toNat with
  | error e =>
    rw [hencoded] at hp
    cases hp
  | ok q =>
    rw [hencoded] at hp
    cases hp
    rfl

namespace Sample

/-- Bounds that leave no room for the overhead of the longest record. -/
def tight : FabricConfig where
  bounds := { maxRecordBytes := 314, maxJournalBytes := 314 }

/-- A run that fills the journal up to its soft limit. -/
def filled : List Step := [step (.start boot), step (.ingestTopology topology)]

end Sample

/-- Bounds whose soft limit has room for the overhead never wedge a store whose envelopes fit
theirs. -/
theorem Bounds.Roomy.unwedged (h : c.bounds.Roomy) (hvalid : c.bounds.validate = .ok ())
    (hfits : SnapshotFits c.bounds (run c steps).state snapshot)
    (henveloped : Enveloped c.bounds snapshot) : Unwedged c (run c steps) := by
  apply unwedged_of_hasRoom hvalid h.readable hfits
  intro _
  refine ⟨fun hsoft _ ↦ ?_, fun _ ↦ henveloped⟩
  have hrecord := h.record
  omega

end OffloadFabric
