import OffloadFabric.Journal.Front

/-!
# Corrupted journals

What opening under `TruncateTornTail` makes of a journal one byte of which has changed
(`src/journal.cpp:88-157,546-574`). The length of a record is believed before its checksum is
compared, so a changed length can pass for a torn tail.
-/

namespace OffloadFabric

open Lib Lib.Fallible Journal JournalStore

namespace Corruption

variable {maxRecordBytes : UInt64} {outcome : ScanOutcome} {r : JournalRecord}
  {rs before after : List JournalRecord} {rest tail p q : Bytes} {b b' : UInt8}

/-- The bytes go on behind a record: whole records of later sequences and at most a part of one. -/
def ReadsOn (maxRecordBytes sequence : UInt64) (rest : Bytes) : Prop :=
  ∃ rs tail, rest = recordBytes rs ++ tail ∧ Ascending maxRecordBytes sequence rs ∧
    (∀ r ∈ rs, r.Fits) ∧ (tail = [] ∨ Torn maxRecordBytes tail)

/-- The changed bytes from a record on, read with the length they now declare: it is within the
bound, and either they end inside that length, or the checksum matches there and they go on
behind it. -/
def Resized (maxRecordBytes : UInt64) (r : JournalRecord) (rest : Bytes) : Prop :=
  framing.declared rest ≤ maxRecordBytes.toNat ∧ (rest.length < framing.total rest ∨
    framing.Framed (rest.take (framing.total rest)) ∧
      ReadsOn maxRecordBytes r.sequence (rest.drop (framing.total rest)))

/-- The changed byte is one of the four length bytes of a record, and the record is read with
another length. -/
def Misread (maxRecordBytes : UInt64) (rs : List JournalRecord) (p : Bytes) (b' : UInt8)
    (q : Bytes) : Prop :=
  ∃ before r after, rs = before ++ r :: after ∧ (recordBytes before).length ≤ p.length ∧
    p.length < (recordBytes before).length + 4 ∧
    Resized maxRecordBytes r ((p ++ b' :: q).drop (recordBytes before).length)

/-! ## Where the byte stands -/

/-- A byte stands behind the records or inside one of them. -/
private theorem locate (rs : List JournalRecord) (n : Nat) :
    (recordBytes rs).length ≤ n ∨ ∃ before r after, rs = before ++ r :: after ∧
      (recordBytes before).length ≤ n ∧ n < (recordBytes before).length + r.size := by
  induction rs generalizing n with
  | nil => exact .inl (Nat.zero_le n)
  | cons x rs ih =>
    by_cases hhead : n < x.size
    · exact .inr ⟨[], x, rs, rfl, Nat.zero_le n, by simpa using hhead⟩
    · rcases ih (n - x.size) with hbehind | ⟨before, r, after, rfl, hlo, hhi⟩
      · left
        simp only [recordBytes_cons, List.length_append, JournalRecord.length_bytes]
        omega
      · refine .inr ⟨x :: before, r, after, rfl, ?_, ?_⟩
        all_goals
          simp only [recordBytes_cons, List.length_append, JournalRecord.length_bytes]
          omega

/-- It stands inside only one of them. -/
private theorem located_unique {before' after' : List JournalRecord} {r' : JournalRecord} {n : Nat}
    (hrs : before ++ r :: after = before' ++ r' :: after')
    (hlo : (recordBytes before).length ≤ n) (hhi : n < (recordBytes before).length + r.size)
    (hlo' : (recordBytes before').length ≤ n)
    (hhi' : n < (recordBytes before').length + r'.size) : before = before' ∧ r = r' := by
  induction before generalizing before' n with
  | nil =>
    cases before' with
    | nil => exact ⟨rfl, (List.cons.inj hrs).1⟩
    | cons x before' =>
      obtain ⟨rfl, -⟩ := List.cons.inj hrs
      simp only [recordBytes_nil, List.length_nil, recordBytes_cons, List.length_append,
        JournalRecord.length_bytes] at *
      omega
  | cons x before ih =>
    cases before' with
    | nil =>
      obtain ⟨rfl, -⟩ := List.cons.inj hrs
      simp only [recordBytes_nil, List.length_nil, recordBytes_cons, List.length_append,
        JournalRecord.length_bytes] at *
      omega
    | cons x' before' =>
      obtain ⟨rfl, hrest⟩ := List.cons.inj hrs
      simp only [recordBytes_cons, List.length_append, JournalRecord.length_bytes] at hlo hhi hlo' hhi'
      have htail := @ih before' (n - x.size) hrest (by omega) (by omega) (by omega) (by omega)
      exact ⟨by rw [htail.1], htail.2⟩

/-! ## Reading a record with a changed byte -/

theorem ascending_of_allReadable (h : AllReadable maxRecordBytes (outcome.accept r) rs) :
    Ascending maxRecordBytes r.sequence rs ∧ ∀ x ∈ rs, x.Fits := by
  induction rs generalizing outcome r with
  | nil => exact ⟨⟨by simp, by simp, by simp⟩, by simp⟩
  | cons x rs ih =>
    obtain ⟨hascending, hfits⟩ := ih h.2
    have hlater : r.sequence < x.sequence := by
      rcases h.1.precedes with hzero | hlt
      · exact absurd hzero (Nat.succ_ne_zero _)
      · exact hlt
    refine ⟨.cons h.1.bounded hlater hascending, fun y hy ↦ ?_⟩
    rcases List.mem_cons.mp hy with rfl | hy
    · exact h.1.fits
    · exact hfits y hy

private theorem allReadable_accept (h : Ascending maxRecordBytes r.sequence rs)
    (hfits : ∀ x ∈ rs, x.Fits) : AllReadable maxRecordBytes (outcome.accept r) rs :=
  h.allReadable hfits fun x hx ↦ .inr (h.above x hx)

private theorem length_change (hbytes : r.bytes ++ tail = p ++ b :: q) :
    (p ++ b' :: q).length = r.size + tail.length := by
  have hlen := congrArg List.length hbytes
  simp only [List.length_append, List.length_cons, JournalRecord.length_bytes] at hlen ⊢
  omega

private theorem size_ge (r : JournalRecord) : 24 ≤ r.size := by
  simp only [JournalRecord.size, recordHeaderSize, recordTrailerSize]
  omega

/-- A record whose changed byte is not one of its length is damage. -/
private theorem damaged_of_checksum (h : Readable maxRecordBytes outcome r)
    (hdamaged : outcome.damaged = false) (hbytes : r.bytes ++ tail = p ++ b :: q)
    (hne : b ≠ b') (hlo : 4 ≤ p.length) (hhi : p.length < r.size) :
    (scanRest maxRecordBytes outcome (p ++ b' :: q)).damaged = true := by
  have hlen := @length_change r tail p q b b' hbytes
  have hge := size_ge r
  have htotal : framing.total (p ++ b' :: q) = r.size := by
    have hdeclared : framing.declared (p ++ b' :: q) = framing.declared (p ++ b :: q) :=
      (field_eq_of_byte b b' q (.inr hlo)).symm
    rw [Framing.total, hdeclared, ← hbytes]
    exact h.fits.total
  by_contra hundamaged
  rw [Bool.not_eq_true, undamaged_iff hdamaged] at hundamaged
  obtain ⟨rs, more, hrest, hrs, hmore⟩ := hundamaged
  cases rs with
  | nil =>
    rw [recordBytes_nil, List.nil_append] at hrest
    rcases hmore with hnil | hshort | ⟨-, hshort⟩
    · rw [← hrest] at hnil
      simp at hnil
    · rw [← hrest, hlen] at hshort
      simp only [recordHeaderSize, recordTrailerSize] at hshort
      omega
    · rw [← hrest, hlen, htotal] at hshort
      omega
  | cons r' rs =>
    rw [recordBytes_cons, List.append_assoc] at hrest
    have hsize : r'.size = r.size := by
      rw [← htotal, hrest]
      exact hrs.1.fits.total.symm
    have hbefore : r.bytes = p ++ b :: q.take (r.size - p.length - 1) := by
      rw [← take_middle b q hhi, ← hbytes, ← JournalRecord.length_bytes, List.take_left]
    have hafter : r'.bytes = p ++ b' :: q.take (r.size - p.length - 1) := by
      rw [← take_middle b' q hhi, hrest, ← hsize, ← JournalRecord.length_bytes, List.take_left]
    have hframed := h.fits.framed
    rw [hbefore] at hframed
    exact hframed.not_framed hne (hafter ▸ hrs.1.fits.framed)

/-- A record whose changed byte is one of its length is damage unless it is read with the length
that byte makes. -/
private theorem damaged_iff_resized (h : Readable maxRecordBytes outcome r)
    (hdamaged : outcome.damaged = false) (hbytes : r.bytes ++ tail = p ++ b :: q)
    (hlo : p.length < 4) :
    (scanRest maxRecordBytes outcome (p ++ b' :: q)).damaged = true ↔
      ¬ Resized maxRecordBytes r (p ++ b' :: q) := by
  have hlen := @length_change r tail p q b b' hbytes
  have hge := size_ge r
  have htype : RecordType.ofCode? (.ofNat (field 2 4 (p ++ b' :: q))) = some r.type := by
    rw [← field_eq_of_byte b b' q (.inl hlo), ← hbytes]
    exact type_of_bytes r tail
  have hsequence : (.ofNat (field 8 8 (p ++ b' :: q)) : UInt64) = r.sequence := by
    rw [← field_eq_of_byte b b' q (.inl (by omega)), ← hbytes, JournalRecord.sequence_bytes,
      UInt64.ofNat_toNat]
  rw [← Bool.not_eq_false, not_iff_not, undamaged_iff hdamaged]
  constructor
  · rintro ⟨rs, more, hrest, hrs, hmore⟩
    cases rs with
    | nil =>
      rw [recordBytes_nil, List.nil_append] at hrest
      rcases hmore with hnil | hshort | ⟨hbound, hshort⟩
      · rw [← hrest] at hnil
        simp at hnil
      · rw [← hrest, hlen] at hshort
        simp only [recordHeaderSize, recordTrailerSize] at hshort
        omega
      · rw [← hrest] at hbound hshort
        exact ⟨hbound, .inl hshort⟩
    | cons r' rs =>
      rw [recordBytes_cons, List.append_assoc] at hrest
      have hr' := hrs.1
      have htotal : framing.total (p ++ b' :: q) = r'.size := by
        rw [hrest]
        exact hr'.fits.total
      have htake : (p ++ b' :: q).take r'.size = r'.bytes := by
        rw [hrest, ← JournalRecord.length_bytes, List.take_left]
      have hdrop : (p ++ b' :: q).drop r'.size = recordBytes rs ++ more := by
        rw [hrest, ← JournalRecord.length_bytes, List.drop_left]
      have hsame : r'.sequence = r.sequence := by
        rw [← hsequence, hrest, JournalRecord.sequence_bytes, UInt64.ofNat_toNat]
      obtain ⟨hascending, hfits⟩ := ascending_of_allReadable hrs.2
      refine ⟨?_, .inr ⟨?_, rs, more, ?_, hsame ▸ hascending, hfits, hmore⟩⟩
      · rw [hrest, hr'.fits.declared]
        exact hr'.bounded
      · rw [htotal, htake]
        exact hr'.fits.framed
      · rw [htotal, hdrop]
  · rintro ⟨hbound, hshort | ⟨hframed, rs, more, hdrop, hascending, hfits, hmore⟩⟩
    · exact ⟨[], p ++ b' :: q, rfl, trivial, .inr (.inr ⟨hbound, hshort⟩)⟩
    · -- the frame the new length makes is a record
      obtain ⟨r', hr'⟩ : ∃ r', r' = JournalRecord.ofBytes r.type
          ((p ++ b' :: q).take (framing.total (p ++ b' :: q))) := ⟨_, rfl⟩
      have hlarge := header_le_total (p ++ b' :: q)
      have hheader : framing.headerSize ≤ framing.total (p ++ b' :: q) :=
        le_trans (by decide) hlarge
      have hbytes' : r'.bytes = (p ++ b' :: q).take (framing.total (p ++ b' :: q)) := by
        rw [hr']
        refine JournalRecord.bytes_ofBytes hframed ?_
        rw [field_take _ (by omega), htype]
      have hsame : r'.sequence = r.sequence := by
        rw [← hsequence, hr', JournalRecord.ofBytes, field_take _ (by omega)]
      have hreadable : Readable maxRecordBytes outcome r' := by
        refine ⟨hr' ▸ JournalRecord.fits_ofBytes hframed, ?_, hsame ▸ h.precedes⟩
        rw [hr', JournalRecord.length_payload_ofBytes hframed, Framing.declared_take _ hheader]
        exact hbound
      refine ⟨r' :: rs, more, ?_, ⟨hreadable, allReadable_accept (hsame ▸ hascending) hfits⟩, hmore⟩
      rw [recordBytes_cons, List.append_assoc, ← hdrop, hbytes', List.take_append_drop]

/-! ## What opening keeps -/

theorem allReadable_append (h : AllReadable maxRecordBytes outcome (before ++ rs)) :
    AllReadable maxRecordBytes outcome before ∧
      AllReadable maxRecordBytes (acceptAll outcome before) rs := by
  induction before generalizing outcome with
  | nil => exact ⟨trivial, h⟩
  | cons x before ih =>
    obtain ⟨hbefore, hrs⟩ := ih h.2
    exact ⟨⟨h.1, hbefore⟩, hrs⟩

/-- Under `TruncateTornTail` damage ends an opening; without it the accepted records are kept. -/
private theorem keptBytes_truncate {header body : Bytes} (hheader : header.length = headerSize) :
    ∃ tail, AllReadable maxRecordBytes {} (scanRest maxRecordBytes {} body).accepted ∧
      body = recordBytes (scanRest maxRecordBytes {} body).accepted ++ tail ∧
      keptBytes .truncateTornTail (scanRest maxRecordBytes {} body) (header ++ body) =
        if (scanRest maxRecordBytes {} body).damaged = true then none
        else some (header ++ recordBytes (scanRest maxRecordBytes {} body).accepted) := by
  obtain ⟨rs, tail, hbody, hrs, hends⟩ := scanRest_cases maxRecordBytes {} body
  have haccepted : (scanRest maxRecordBytes {} body).accepted = rs := by
    rcases hends with ⟨-, hscan⟩ | ⟨-, -, detail, hscan⟩ | ⟨-, -, reason, detail, hscan⟩
    all_goals
      rw [hscan]
      exact accepted_acceptAll
  rw [haccepted]
  refine ⟨tail, hrs, hbody, ?_⟩
  unfold keptBytes
  rcases hends with ⟨rfl, hscan⟩ | ⟨-, -, detail, hscan⟩ | ⟨-, -, reason, detail, hscan⟩
  · rw [hscan, torn_acceptAll, damaged_acceptAll, hbody, List.append_nil]
    rfl
  · have hdamaged : ((acceptAll {} rs).tear detail tail.length).damaged = false :=
      damaged_acceptAll
    have hoffset : ((acceptAll {} rs).tear detail tail.length).lastGoodOffset =
        header.length + (recordBytes rs).length := by
      rw [hheader]
      exact lastGoodOffset_acceptAll
    rw [hscan, hdamaged, if_pos (.inl rfl), if_pos (.inl ⟨rfl, rfl⟩), if_neg (by simp), hoffset,
      List.take_length_add_append, hbody, List.take_left]
  · have htorn : ((acceptAll {} rs).damage reason detail tail.length).torn = false :=
      torn_acceptAll
    have hrefused : ¬ tailTruncationAllowed .truncateTornTail
        ((acceptAll {} rs).damage reason detail tail.length) := by
      simp [tailTruncationAllowed, htorn]
    have hdamaged : ((acceptAll {} rs).damage reason detail tail.length).damaged = true := rfl
    rw [hscan, if_pos (.inr hdamaged), if_neg hrefused, if_pos hdamaged]

/-- Opening the files recovers all the records: if it does not refuse, they are what the journal
goes on to hold behind its header. -/
def RecoversAll (s : JournalStore) (files : StoreFiles) (rs : List JournalRecord) : Prop :=
  ∀ now generated report u o,
    s.reopen .truncateTornTail files now generated report = (.ok u, o) →
      ∃ more, u.file = s.header ++ recordBytes (rs ++ more)

section Change

variable {s : JournalStore} {files : StoreFiles} (hs : s.Sound)
  (hfile : files.journal = some (s.header ++ (p ++ b :: q)))
  (hvalid : ∃ now generated report u o,
    s.reopen .truncateTornTail files now generated report = (.ok u, o))
include hs hfile hvalid

/-- The changed journal is refused when its scan finds damage, and else kept up to what the scan
accepts. -/
private theorem reopen_changed (now : UInt64) (generated : StoreId) (report : RecoveryReport)
    (u : JournalStore) :
    (∃ o, s.reopen .truncateTornTail { files with journal := some (s.header ++ (p ++ b' :: q)) }
        now generated report = (.ok u, o)) ↔
      (scanRest s.options.maxRecordBytes {} (p ++ b' :: q)).damaged = false ∧
      u = s.recovered .truncateTornTail
        { files with journal := some (s.header ++ (p ++ b' :: q)) }
        (scanRest s.options.maxRecordBytes {} (p ++ b' :: q))
        (s.header ++ recordBytes (scanRest s.options.maxRecordBytes {} (p ++ b' :: q)).accepted) := by
  obtain ⟨now₀, generated₀, report₀, u₀, o₀, hopen⟩ := hvalid
  obtain ⟨hversion, hlimit, hsnapshot, -⟩ := (reopen_iff hs hfile).mp ⟨o₀, hopen⟩
  have hlimit' : (s.header ++ (p ++ b' :: q)).length ≤ (readLimit s.options).toNat := by
    simpa using hlimit
  obtain ⟨tail, -, -, hkept⟩ := @keptBytes_truncate s.options.maxRecordBytes s.header
    (p ++ b' :: q) hs.length_header
  have hfile' : ({ files with journal := some (s.header ++ (p ++ b' :: q)) } : StoreFiles).journal =
      some (s.header ++ (p ++ b' :: q)) := rfl
  rw [reopen_iff hs hfile', hkept]
  cases (scanRest s.options.maxRecordBytes {} (p ++ b' :: q)).damaged with
  | true => simp
  | false =>
    constructor
    · rintro ⟨-, -, -, kept, hsome, rfl⟩
      cases hsome
      exact ⟨rfl, rfl⟩
    · rintro ⟨-, rfl⟩
      exact ⟨hversion, hlimit', hsnapshot, _, rfl, rfl⟩

/-- A changed byte inside a record is recovered from only by refusing. -/
private theorem recoversAll_inside (hne : b ≠ b')
    (hbody : p ++ b :: q = recordBytes rs ++ tail) (hinside : p.length < (recordBytes rs).length) :
    RecoversAll s { files with journal := some (s.header ++ (p ++ b' :: q)) } rs ↔
      (scanRest s.options.maxRecordBytes {} (p ++ b' :: q)).damaged = true := by
  have hreopen := @reopen_changed p q b b' s files hs hfile hvalid
  obtain ⟨tail', -, hbody', -⟩ := @keptBytes_truncate s.options.maxRecordBytes s.header
    (p ++ b' :: q) hs.length_header
  constructor
  · intro hrecovers
    by_contra hundamaged
    rw [Bool.not_eq_true] at hundamaged
    obtain ⟨o, hopen⟩ := (hreopen 0 .empty {} _).mpr ⟨hundamaged, rfl⟩
    obtain ⟨more, hmore⟩ := hrecovers 0 .empty {} _ o hopen
    have haccepted := List.append_cancel_left hmore
    rw [haccepted, recordBytes_append, List.append_assoc] at hbody'
    -- both journals begin with the bytes of the records
    have htake := congrArg (List.take (recordBytes rs).length) hbody
    have htake' := congrArg (List.take (recordBytes rs).length) hbody'
    rw [List.take_left, take_middle _ _ hinside] at htake htake'
    have hheads := List.append_cancel_left (htake.trans htake'.symm)
    exact hne (List.cons.inj hheads).1
  · intro hdamaged now generated report u o hopen
    obtain ⟨hundamaged, -⟩ := (hreopen now generated report u).mp ⟨o, hopen⟩
    rw [hdamaged] at hundamaged
    cases hundamaged

/-- **One changed byte behind the header is noticed exactly when** it is not a length byte that has
its record read with the new length. -/
theorem recoversAll_iff (hne : b ≠ b') :
    RecoversAll s { files with journal := some (s.header ++ (p ++ b' :: q)) }
        (scanRest s.options.maxRecordBytes {} (p ++ b :: q)).accepted ↔
      ¬ Misread s.options.maxRecordBytes
        (scanRest s.options.maxRecordBytes {} (p ++ b :: q)).accepted p b' q := by
  obtain ⟨tail, hrs, hbody, -⟩ := @keptBytes_truncate s.options.maxRecordBytes s.header
    (p ++ b :: q) hs.length_header
  generalize (scanRest s.options.maxRecordBytes {} (p ++ b :: q)).accepted = rs at hrs hbody ⊢
  have hfront {n : Nat} (hn : n ≤ p.length) (c : UInt8) :
      (p ++ c :: q) = p.take n ++ (p.drop n ++ c :: q) := by
    rw [← List.append_assoc, List.take_append_drop]
  rcases locate rs p.length with hbehind | ⟨before, r, after, rfl, hlo, hhi⟩
  · -- behind the records they are read before the change
    have hrecords : p.take (recordBytes rs).length = recordBytes rs := by
      have htake := congrArg (List.take (recordBytes rs).length) hbody
      rwa [List.take_left, List.take_append_of_le_length hbehind] at htake
    refine iff_of_true ?_ ?_
    · intro now generated report u o hopen
      obtain ⟨-, rfl⟩ := (reopen_changed hs hfile hvalid now generated report u).mp ⟨o, hopen⟩
      rw [hfront hbehind, hrecords, scanRest_records hrs]
      obtain ⟨more, _, -, -, hends⟩ := scanRest_cases s.options.maxRecordBytes
        (acceptAll {} rs) (p.drop (recordBytes rs).length ++ b' :: q)
      refine ⟨more, ?_⟩
      rcases hends with ⟨-, hscan⟩ | ⟨-, -, detail, hscan⟩ | ⟨-, -, reason, detail, hscan⟩
      all_goals
        have haccepted : (acceptAll (acceptAll {} rs) more).accepted = rs ++ more := by simp
        rw [hscan]
        simp only [ScanOutcome.tear, ScanOutcome.damage, haccepted]
        rfl
    · rintro ⟨before, r, after, rfl, hlo, hhi, -⟩
      have hge := size_ge r
      simp only [recordBytes_append, recordBytes_cons, List.length_append,
        JournalRecord.length_bytes] at hbehind
      omega
  · have hinside : p.length < (recordBytes (before ++ r :: after)).length := by
      simp only [recordBytes_append, recordBytes_cons, List.length_append,
        JournalRecord.length_bytes]
      omega
    rw [recoversAll_inside hs hfile hvalid hne hbody hinside]
    obtain ⟨hbefore, hr, -⟩ := allReadable_append hrs
    have hdamaged : (acceptAll {} before).damaged = false := damaged_acceptAll
    have hrecords : p.take (recordBytes before).length = recordBytes before := by
      have htake := congrArg (List.take (recordBytes before).length) hbody
      rwa [recordBytes_append, List.append_assoc, List.take_left,
        List.take_append_of_le_length hlo] at htake
    have hbytes : r.bytes ++ (recordBytes after ++ tail) =
        p.drop (recordBytes before).length ++ b :: q := by
      rw [hfront hlo, hrecords, recordBytes_append, List.append_assoc] at hbody
      have := List.append_cancel_left hbody
      rw [this, recordBytes_cons, List.append_assoc]
    have hdrop : (p ++ b' :: q).drop (recordBytes before).length =
        p.drop (recordBytes before).length ++ b' :: q :=
      drop_middle b' q hlo
    have hlength : (p.drop (recordBytes before).length).length =
        p.length - (recordBytes before).length := List.length_drop
    rw [hfront hlo b', hrecords, scanRest_records hbefore]
    by_cases hfield : p.length < (recordBytes before).length + 4
    · rw [damaged_iff_resized hr hdamaged hbytes (by omega), not_iff_not]
      constructor
      · intro hresized
        exact ⟨before, r, after, rfl, hlo, hfield, hdrop ▸ hresized⟩
      · rintro ⟨before', r', after', hsame, hlo', hfield', hresized⟩
        have hge := size_ge r'
        obtain ⟨rfl, rfl⟩ := located_unique hsame hlo hhi hlo' (by omega)
        rwa [hdrop] at hresized
    · refine iff_of_true (damaged_of_checksum hr hdamaged hbytes hne (by omega) (by omega)) ?_
      rintro ⟨before', r', after', hsame, hlo', hfield', -⟩
      have hge := size_ge r'
      obtain ⟨rfl, rfl⟩ := located_unique hsame hlo hhi hlo' (by omega)
      exact hfield hfield'

end Change

/-! ## Two changes -/

private def oneRecord : JournalRecord := ⟨.epochStarted, 1, [], 0, 0⟩

private def oneRecordStore : JournalStore :=
  (newStore ⟨ascii "0123456789abcdef0123456789abcdef", canonical_hex⟩).advanced [oneRecord]

private theorem sound_oneRecordStore : oneRecordStore.Sound := by
  have hbare : Bare (newStore ⟨ascii "0123456789abcdef0123456789abcdef", canonical_hex⟩) :=
    bare_newStore rfl
  exact hbare.toSound.advanced [oneRecord]

private theorem journal_oneRecordStore (hbytes : oneRecord.bytes = p ++ b :: q) :
    oneRecordStore.files.journal = some (oneRecordStore.header ++ (p ++ b :: q)) := by
  rw [← hbytes, ← recordBytes_singleton]
  rfl

private theorem readable_oneRecord :
    AllReadable oneRecordStore.options.maxRecordBytes {} [oneRecord] :=
  ⟨⟨by decide, by decide, .inl rfl⟩, trivial⟩

private theorem accepted_oneRecord (hbytes : oneRecord.bytes = p ++ b :: q) :
    scanRest oneRecordStore.options.maxRecordBytes {} (p ++ b :: q) = acceptAll {} [oneRecord] := by
  have hscan := scanRest_records readable_oneRecord []
  rwa [List.append_nil, recordBytes_singleton, hbytes] at hscan

private theorem valid_oneRecordStore (hbytes : oneRecord.bytes = p ++ b :: q) :
    ∃ now generated report u o, oneRecordStore.reopen .truncateTornTail oneRecordStore.files now
      generated report = (.ok u, o) := by
  have hkept : keptBytes .truncateTornTail
      (scanRest oneRecordStore.options.maxRecordBytes {} (p ++ b :: q))
      (oneRecordStore.header ++ (p ++ b :: q)) = some (oneRecordStore.header ++ (p ++ b :: q)) := by
    rw [accepted_oneRecord hbytes]
    rfl
  have hlimit : (oneRecordStore.header ++ (p ++ b :: q)).length ≤
      (readLimit oneRecordStore.options).toNat := by
    rw [← hbytes, List.length_append, sound_oneRecordStore.length_header]
    decide
  obtain ⟨u, hu⟩ : ∃ u, u = oneRecordStore.recovered .truncateTornTail oneRecordStore.files
      (scanRest oneRecordStore.options.maxRecordBytes {} (p ++ b :: q))
      (oneRecordStore.header ++ (p ++ b :: q)) := ⟨_, rfl⟩
  have hsnapshot : SnapshotReadable
      (oneRecordStore.options.withRecovery .truncateTornTail) oneRecordStore.files.snapshot := by
    intro data hdata
    cases hdata
  have hopen : ∃ o, oneRecordStore.reopen .truncateTornTail oneRecordStore.files 0 .empty {} =
      (.ok u, o) :=
    (reopen_iff sound_oneRecordStore (journal_oneRecordStore hbytes)).mpr
      ⟨by decide, hlimit, hsnapshot, _, hkept, hu⟩
  obtain ⟨o, hopen⟩ := hopen
  exact ⟨0, .empty, {}, u, o, hopen⟩

/-- **A changed length byte passes for a torn tail**: the record is discarded. -/
theorem changed_length_discards_record :
    ¬ ∀ (s : JournalStore) (files : StoreFiles) (p q : Bytes) (b b' : UInt8), s.Sound →
      files.journal = some (s.header ++ (p ++ b :: q)) →
      (∃ now generated report u o,
        s.reopen .truncateTornTail files now generated report = (.ok u, o)) → b ≠ b' →
      RecoversAll s { files with journal := some (s.header ++ (p ++ b' :: q)) }
        (scanRest s.options.maxRecordBytes {} (p ++ b :: q)).accepted := by
  intro h
  have hbytes : oneRecord.bytes = [] ++ 0 :: oneRecord.bytes.tail := rfl
  have hrecovers := h oneRecordStore _ [] oneRecord.bytes.tail 0 1 sound_oneRecordStore
    (journal_oneRecordStore hbytes) (valid_oneRecordStore hbytes) (by decide)
  have hbody : [] ++ 0 :: oneRecord.bytes.tail = recordBytes [oneRecord] ++ [] := by
    rw [← hbytes, recordBytes_singleton, List.append_nil]
  rw [accepted_oneRecord hbytes, accepted_acceptAll] at hrecovers
  have hdamaged := (recoversAll_inside sound_oneRecordStore (journal_oneRecordStore hbytes)
    (valid_oneRecordStore hbytes) (by decide) hbody (by decide)).mp hrecovers
  have htorn : Torn oneRecordStore.options.maxRecordBytes ([] ++ 1 :: oneRecord.bytes.tail) :=
    .inr ⟨by decide, by decide⟩
  obtain ⟨detail, hscan⟩ := scanRest_torn {} (by simp) htorn
  rw [hscan] at hdamaged
  cases hdamaged

/-- A changed type byte is noticed. -/
theorem changed_type_recovers :
    RecoversAll oneRecordStore
      { oneRecordStore.files with
        journal := some (oneRecordStore.header ++ ([0, 0, 0, 0] ++ 2 :: oneRecord.bytes.drop 5)) }
      (scanRest oneRecordStore.options.maxRecordBytes {}
        ([0, 0, 0, 0] ++ 1 :: oneRecord.bytes.drop 5)).accepted := by
  have hbytes : oneRecord.bytes = [0, 0, 0, 0] ++ 1 :: oneRecord.bytes.drop 5 := rfl
  refine (recoversAll_iff sound_oneRecordStore (journal_oneRecordStore hbytes)
    (valid_oneRecordStore hbytes) (by decide)).mpr ?_
  rw [accepted_oneRecord hbytes, accepted_acceptAll]
  rintro ⟨before, r, after, hrs, -, hfield, -⟩
  cases before with
  | nil => exact absurd hfield (by decide)
  | cons x before => simp at hrs

end Corruption

end OffloadFabric
