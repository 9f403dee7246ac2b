import OffloadFabric.Journal.Replay

/-!
# Cut journals

What the two readers of a journal find in a front part of its records: the records wholly
contained in it, and behind them a part of one in front of which both end.
-/

namespace OffloadFabric

open Lib Lib.Fallible

namespace Journal

variable {maxRecordBytes : UInt64} {r : JournalRecord} {rs : List JournalRecord}

/-- The records wholly contained in the first bytes of their run. -/
def contained : Nat → List JournalRecord → List JournalRecord
  | _, [] => []
  | bytes, r :: rs => if r.size ≤ bytes then r :: contained (bytes - r.size) rs else []

/-- Every record whose size wraps in 32 bits begins too late in the first bytes of its run: the
bytes end before its header does, or before the wrapped size is reached. -/
def Legible (bytes : Nat) (rs : List JournalRecord) : Prop :=
  ∀ before r after, rs = before ++ r :: after → ¬ Sized r →
    bytes < (recordBytes before).length + max 24 (r.size % 2 ^ 32)

theorem prefix_contained (bytes : Nat) (rs : List JournalRecord) : contained bytes rs <+: rs := by
  induction rs generalizing bytes with
  | nil => exact List.prefix_rfl
  | cons r rs ih =>
    rw [contained]
    split
    · exact (List.prefix_cons_inj r).mpr (ih _)
    · exact List.nil_prefix

/-- Everything is contained in all the bytes. -/
theorem contained_all (h : (recordBytes rs).length ≤ bytes) : contained bytes rs = rs := by
  induction rs generalizing bytes with
  | nil => rfl
  | cons r rs ih =>
    simp only [recordBytes_cons, List.length_append, JournalRecord.length_bytes] at h
    rw [contained, if_pos (by omega), ih (by omega)]

@[simp] theorem contained_zero (rs : List JournalRecord) : contained 0 rs = [] := by
  cases rs with
  | nil => rfl
  | cons r rs =>
    have hpos := r.size_pos
    rw [contained, if_neg (by omega)]

/-- Whole records in front are contained. -/
theorem contained_append (before after : List JournalRecord) (more : Nat) :
    contained ((recordBytes before).length + more) (before ++ after) =
      before ++ contained more after := by
  induction before with
  | nil => simp
  | cons r before ih =>
    simp only [recordBytes_cons, List.length_append, JournalRecord.length_bytes]
    rw [List.cons_append, contained, if_pos (by omega), Nat.add_assoc, Nat.add_sub_cancel_left, ih,
      List.cons_append]

theorem max_le_size (r : JournalRecord) : max 24 (r.size % 2 ^ 32) ≤ r.size := by
  have hmod := Nat.mod_le r.size (2 ^ 32)
  have hge : 24 ≤ r.size := by
    simp only [JournalRecord.size, recordHeaderSize, recordTrailerSize]
    omega
  omega

theorem replayTotal_bytes (r : JournalRecord) (tail : Bytes) :
    replayTotal (r.bytes ++ tail) = r.size % 2 ^ 32 := by
  simp only [replayTotal, Framing.total, JournalRecord.declared_bytes, JournalRecord.size,
    recordTrailerSize]
  change (20 + _ + 4) % _ = _
  simp only [recordHeaderSize]
  omega

theorem Legible.tail {bytes : Nat} (h : Legible bytes (r :: rs)) (hr : r.size ≤ bytes) :
    Legible (bytes - r.size) rs := by
  intro before r' after hrs hwraps
  have hlt := h (r :: before) r' after (by rw [hrs]; rfl) hwraps
  simp only [recordBytes_cons, List.length_append, JournalRecord.length_bytes] at hlt
  omega

theorem Legible.sized_head {bytes : Nat} (h : Legible bytes (r :: rs)) (hr : r.size ≤ bytes) :
    Sized r := by
  by_contra hwraps
  have hlt := h [] r rs rfl hwraps
  have hle := max_le_size r
  simp only [recordBytes_nil, List.length_nil] at hlt
  omega

theorem legible_of_sized (h : ∀ r ∈ rs, Sized r) (bytes : Nat) : Legible bytes rs := by
  rintro before r after rfl hwraps
  exact absurd (h r (by simp)) hwraps

/-- Whole records whose sizes do not wrap change nothing in front. -/
theorem legible_append {before after : List JournalRecord} {more : Nat}
    (hsized : ∀ r ∈ before, Sized r) (h : Legible more after) :
    Legible ((recordBytes before).length + more) (before ++ after) := by
  induction before with
  | nil => simpa using h
  | cons x before ih =>
    intro front r back hrs hwraps
    cases front with
    | nil =>
      cases hrs
      exact absurd (hsized x (by simp)) hwraps
    | cons y front =>
      obtain ⟨rfl, hrest⟩ := List.cons.inj hrs
      have hlt := ih (fun r hr ↦ hsized r (List.mem_cons_of_mem x hr)) front r back hrest hwraps
      simp only [recordBytes_cons, List.length_append]
      omega

theorem legible_singleton {more : Nat} (h : Sized r ∨ more < max 24 (r.size % 2 ^ 32)) :
    Legible more [r] := by
  intro before r' after hrs hwraps
  cases before with
  | nil =>
    cases hrs
    have hlt := h.resolve_left hwraps
    simpa using hlt
  | cons x before => simp at hrs

/-- The bytes of a record cut short stop both readers. -/
theorem stops_take {bytes : Nat} (hbytes : bytes < r.size)
    (hlegible : Sized r ∨ bytes < max 24 (r.size % 2 ^ 32))
    (hbound : r.payload.length ≤ maxRecordBytes.toNat) :
    Stops (r.bytes.take bytes) ∧ Torn maxRecordBytes (r.bytes.take bytes) := by
  have hlen : (r.bytes.take bytes).length = bytes := by
    rw [List.length_take, JournalRecord.length_bytes]
    omega
  by_cases hshort : bytes < 24
  · have hlt : (r.bytes.take bytes).length < recordHeaderSize + recordTrailerSize := by
      rw [hlen]
      exact hshort
    exact ⟨.inl hlt, .inl hlt⟩
  have hheader : framing.headerSize ≤ bytes := by
    change 20 ≤ bytes
    omega
  have hwrapped : bytes < r.size % 2 ^ 32 := by
    rcases hlegible with h | h
    · rwa [Nat.mod_eq_of_lt h]
    · omega
  have hreplay : replayTotal (r.bytes.take bytes) = r.size % 2 ^ 32 := by
    rw [replayTotal, Framing.total_take _ hheader, ← replayTotal_bytes r [], List.append_nil]
    rfl
  have hdeclared : framing.declared (r.bytes.take bytes) = r.payload.length % 2 ^ 32 := by
    rw [Framing.declared_take _ hheader, ← JournalRecord.declared_bytes r [], List.append_nil]
  have hmod := Nat.mod_le r.payload.length (2 ^ 32)
  have hle : replayTotal (r.bytes.take bytes) ≤ framing.total (r.bytes.take bytes) :=
    Nat.mod_le _ _
  refine ⟨.inr (by rw [hreplay, hlen]; exact hwrapped), .inr ⟨by omega, ?_⟩⟩
  rw [hlen]
  omega

/-- **What stands in a front part of a run of records.** -/
theorem take_recordBytes {bytes : Nat} (hlegible : Legible bytes rs)
    (hbound : ∀ r ∈ rs, r.payload.length ≤ maxRecordBytes.toNat) :
    (∀ r ∈ contained bytes rs, Sized r) ∧
      ∃ tail, (recordBytes rs).take bytes = recordBytes (contained bytes rs) ++ tail ∧
        (tail = [] ∨ Stops tail ∧ Torn maxRecordBytes tail) := by
  induction rs generalizing bytes with
  | nil => exact ⟨by simp [contained], [], by simp [contained], .inl rfl⟩
  | cons r rs ih =>
    by_cases hr : r.size ≤ bytes
    · obtain ⟨hsized, tail, htake, htail⟩ :=
        ih (hlegible.tail hr) fun x hx ↦ hbound x (List.mem_cons_of_mem r hx)
      rw [contained, if_pos hr]
      refine ⟨?_, tail, ?_, htail⟩
      · intro x hx
        rcases List.mem_cons.mp hx with rfl | hx
        · exact hlegible.sized_head hr
        · exact hsized x hx
      · obtain ⟨more, rfl⟩ := Nat.exists_eq_add_of_le hr
        rw [Nat.add_sub_cancel_left] at htake ⊢
        rw [recordBytes_cons, ← JournalRecord.length_bytes, List.take_length_add_append, htake,
          recordBytes_cons, List.append_assoc]
    · rw [contained, if_neg hr]
      refine ⟨by simp, r.bytes.take bytes, ?_, ?_⟩
      · rw [recordBytes_cons, List.take_append_of_le_length]
        · rfl
        · rw [JournalRecord.length_bytes]
          omega
      · right
        refine stops_take (by omega) ?_ (hbound r (by simp))
        by_cases hwraps : Sized r
        · exact .inl hwraps
        · have hlt := hlegible [] r rs rfl hwraps
          simp only [recordBytes_nil, List.length_nil] at hlt
          exact .inr (by omega)

/-! ## Where a replay goes wrong -/

/-- In front of a record whose size wraps a replay neither stops nor goes over it. -/
theorem replayFrom_wrapped {covered : UInt64} {turns : Nat} {rest tail : Bytes}
    {gone : List Bytes} {replaying : Replaying Unit} {u : Unit} (hwraps : ¬ Sized r)
    (hrest : rest = (r.bytes ++ tail).take rest.length)
    (hlong : max 24 (r.size % 2 ^ 32) ≤ rest.length) (hturns : turns ≠ 0)
    (h : (replayFrom covered accepting turns rest).exec ⟨(), gone⟩ = (.ok u, replaying))
    (rs : List JournalRecord) :
    replaying.gone ≠ gone ++ (contained rest.length (r :: rs)).map JournalRecord.bytes := by
  have hheader : framing.headerSize ≤ rest.length := by
    change 20 ≤ rest.length
    omega
  have htotal : replayTotal rest = r.size % 2 ^ 32 := by
    rw [hrest, replayTotal, Framing.total_take _ hheader]
    exact replayTotal_bytes r tail
  have hgo : ¬ Stops rest := by
    simp only [Stops, htotal, not_or]
    change ¬ rest.length < 24 ∧ _
    omega
  obtain ⟨more, hmore, hnext⟩ := gone_replayFrom h
  obtain ⟨later, rfl⟩ := hnext hturns hgo
  intro heq
  rw [heq] at hmore
  have hrecords := List.append_cancel_left hmore
  rw [contained] at hrecords
  split at hrecords
  · have hhead := (List.cons.inj hrecords).1
    have hlen := congrArg List.length hhead
    rw [JournalRecord.length_bytes, List.length_take, htotal] at hlen
    have hmod := Nat.mod_lt r.size (show 0 < 2 ^ 32 by decide)
    simp only [Sized] at hwraps
    omega
  · cases hrecords

/-- A replay of a front part that is not legible does not go over the contained records. -/
theorem replayFrom_illegible {covered : UInt64} {bytes turns : Nat} {gone : List Bytes}
    {replaying : Replaying Unit} {u : Unit} (hbytes : bytes ≤ (recordBytes rs).length)
    (hillegible : ¬ Legible bytes rs) (hturns : bytes ≤ turns)
    (h : (replayFrom covered accepting turns ((recordBytes rs).take bytes)).exec ⟨(), gone⟩ =
      (.ok u, replaying)) :
    replaying.gone ≠ gone ++ (contained bytes rs).map JournalRecord.bytes := by
  induction rs generalizing bytes turns gone with
  | nil => exact absurd (fun before r after hrs ↦ by simp at hrs) hillegible
  | cons r rs ih =>
    have hsize : r.size = r.bytes.length := (JournalRecord.length_bytes r).symm
    by_cases hhead : ¬ Sized r ∧ max 24 (r.size % 2 ^ 32) ≤ bytes
    · have hlen : ((recordBytes (r :: rs)).take bytes).length = bytes := by simp at *; omega
      have htake : (recordBytes (r :: rs)).take bytes = (r.bytes ++ recordBytes rs).take
          ((recordBytes (r :: rs)).take bytes).length := by rw [hlen]; rfl
      have hwrapped := replayFrom_wrapped hhead.1 htake (by rw [hlen]; exact hhead.2) (by omega)
        h rs
      rwa [hlen] at hwrapped
    · -- the record that is read wrongly comes later
      have hlater : r.size ≤ bytes ∧ Sized r ∧ ¬ Legible (bytes - r.size) rs := by
        simp only [Legible, not_forall] at hillegible
        obtain ⟨before, r', after, hrs, hwraps, hreached⟩ := hillegible
        cases before with
        | nil =>
          cases hrs
          simp only [recordBytes_nil, List.length_nil, not_lt] at hreached
          exact absurd ⟨hwraps, by omega⟩ hhead
        | cons r'' before =>
          cases hrs
          simp only [recordBytes_cons, List.length_append, JournalRecord.length_bytes,
            not_lt] at hreached
          have hle := max_le_size r
          have hsized : Sized r := by
            by_contra hwraps'
            exact hhead ⟨hwraps', by omega⟩
          refine ⟨by omega, hsized, fun hlegible ↦ ?_⟩
          have hlt := hlegible before r' after rfl hwraps
          omega
      obtain ⟨hle, hsized, hrest⟩ := hlater
      obtain ⟨more, rfl⟩ := Nat.exists_eq_add_of_le hle
      obtain ⟨turns, rfl⟩ : ∃ t, turns = t + 1 := ⟨turns - 1, by have := r.size_pos; omega⟩
      have hpos := r.size_pos
      have htake : (recordBytes (r :: rs)).take (r.size + more) =
          recordBytes [r] ++ (recordBytes rs).take more := by
        rw [hsize, recordBytes_cons, List.take_length_add_append]
        simp
      rw [htake, show turns + 1 = turns + [r].length from rfl,
        replayFrom_records (by simpa using hsized), exec_bind, exec_goThroughAll_accepting] at h
      rw [Nat.add_sub_cancel_left] at hrest
      simp only [recordBytes_cons, List.length_append, ← hsize] at hbytes
      have hne := ih (by omega) hrest (by omega) h
      rw [contained, if_pos (by omega), Nat.add_sub_cancel_left]
      simpa using hne

end Journal

end OffloadFabric
