import OffloadFabric.Fabric.Recovery
import OffloadFabric.Wire.RoundTrip
import OffloadFabric.Wire.Extends

/-!
# Round trips of the durable payloads

A journal payload is read back exactly when its value is readable, and so is the canonical
state encoding, whose counts the encoder cuts to thirty-two bits: under a limit of fewer bytes
no count is cut. What is derived from the rest of the state is not encoded.
-/

namespace OffloadFabric

open Lib Lib.Coder

namespace Wire

variable {cw n : Nat} {b : Bounds}

/-! ## Journal records -/

theorem roundTrip_recordedAssignment (v : RecordedAssignment) :
    RoundTrip (encRecordedAssignment v) cw (decRecordedAssignment b) n v
      (v.record.Readable b n ∧ v.requestId.value.length ≤ n) :=
  RoundTrip.congr
    ((roundTrip_assignment _).bind <| (roundTrip_token _).bind <| (roundTrip_digest _).last _)
    (by simp)

theorem roundTrip_recordedEffect (v : RecordedEffect) :
    RoundTrip (encRecordedEffect v) cw (decRecordedEffect b) n v
      (TextsFit n v.report.texts ∧ v.record.Readable b n ∧ v.requestId.value.length ≤ n) :=
  RoundTrip.congr
    ((roundTrip_effectReport _).bind <| (roundTrip_assignment _).bind <|
      (roundTrip_token _).bind <| (roundTrip_digest _).last _)
    (by simp)

theorem roundTrip_recordedWithdrawal (v : RecordedWithdrawal) :
    RoundTrip (encRecordedWithdrawal v) cw decRecordedWithdrawal n v
      (v.authority.value.length ≤ n ∧ v.requestId.value.length ≤ n) :=
  RoundTrip.congr
    ((roundTrip_token _).bind <| (roundTrip_reasonCode _ _).bind <| (roundTrip_i64 _).bind <|
      (roundTrip_token _).bind <| (roundTrip_digest _).last _)
    (by simp)

theorem roundTrip_recordedRequest (v : RecordedRequest) :
    RoundTrip (encRecordedRequest v) cw (decRecordedRequest b) n v
      (v.requestId.value.length ≤ n ∧ v.response.length ≤ b.maxRecordBytes.toNat) :=
  RoundTrip.congr
    ((roundTrip_token _).bind <| (roundTrip_digest _).bind <| (roundTrip_reasonCode _ _).bind <|
      (roundTrip_i64 _).bind <| (roundTrip_takeBytes _ _).last _)
    (by simp)

theorem roundTrip_reassignment (v : ExclusivityKey × Micros) :
    RoundTrip (encReassignment v) cw decReassignment n v (v.1.scope.value.length ≤ n) := by
  refine RoundTrip.congr ((roundTrip_token _).bind <| (roundTrip_u16 _).bind <|
    (roundTrip_i64 _).followed fun s ↦ ?_) (by simp)
  have hcls : FunctionClass.ofCode? v.1.cls.code = some v.1.cls := Coded.ofCode?_code v.1.cls
  rw [hcls]
  rfl

/-! ## Collections of the state -/

/-- A state collection is read back exactly when it is within the caller's limit and each of
its entries is read back, when the writer's limit is below the thirty-two bits of the count. -/
theorem roundTrip_entries {α : Type} {e : α → Writer} {d : Reader α} (hcw : cw < 2 ^ 32)
    [∀ a, Extends (e a)] [∀ a, Writer.Grows (e a)] (xs : List α) (maxCount : Nat) {R : α → Prop}
    (h : ∀ x, RoundTrip (e x) cw d n x (R x)) :
    RoundTrip (encEntries e xs) cw (decEntries maxCount d) n xs
      (xs.length ≤ maxCount ∧ ∀ x ∈ xs, R x) := by
  by_cases hlen : xs.length < 2 ^ 32
  · have hsize : (UInt32.ofNat xs.length).toNat = xs.length := by
      rw [UInt32.toNat_ofNat', Nat.mod_eq_of_lt hlen]
    refine RoundTrip.bind (b := xs) (P := xs.length ≤ maxCount) (a := xs.length) ?_ (RoundTrip.list h)
    refine RoundTrip.congr ((roundTrip_u32 _).checked (Q := xs.length ≤ maxCount)
      (fun hle s ↦ ?_) fun hle s ↦ ?_) (and_iff_right trivial)
    · rw [hsize, if_pos hle]
      rfl
    · rw [hsize, if_neg hle]
      exact ⟨_, _, rfl⟩
  · -- so many entries do not fit
    intro s t hw
    obtain ⟨_, u, hu, ht⟩ := run_bind_ok hw
    have hfit : u.length ≤ max cw s.length := by
      obtain ⟨p, rfl, hp, -⟩ := Extends.run_eq hu
      exact hp
    have hgrow := Writer.Grows.length_lt hu
    have hall := Writer.length_le_of_each ht
    obtain ⟨p, rfl, hp, -⟩ := Extends.run_eq ht
    omega

/-! ## Entries -/

/-- A snapshot behind a presence flag is read back exactly when the snapshot is. -/
theorem roundTrip_option {α : Type} {e : α → Writer} {d : Reader α} (v : Option α)
    {R : α → Prop} (h : ∀ x, RoundTrip (e x) cw d n x (R x)) :
    RoundTrip (encOption e v) cw (decOption d) n v (∀ x ∈ v, R x) := by
  cases v with
  | none => exact ((roundTrip_boolean false).followed fun s ↦ rfl).congr (by simp)
  | some a =>
      refine RoundTrip.congr ((roundTrip_boolean true).bind (Q := R a) ?_) (by simp)
      exact (h a).followed (f := fun x ↦ pure (some x)) fun s ↦ rfl

theorem roundTrip_scopeEntry (v : ScopeId × ScopeSpec) :
    RoundTrip (encScopeEntry v) cw decScopeEntry n v
      (v.1.value.length ≤ n ∧ TextsFit n v.2.texts) :=
  RoundTrip.congr ((roundTrip_token _).bind <| (roundTrip_scopeSpec _).last _) (by simp)

theorem roundTrip_sourceEntry (v : SourceKey × SourceState) :
    RoundTrip (encSourceEntry v) cw decSourceEntry n v (v.1.source.value.length ≤ n) := by
  refine RoundTrip.congr ((roundTrip_token _).bind <| (roundTrip_u8 _).bind (b := v) (Q := True) ?_)
    (by simp)
  have hdomain : EvidenceDomain.ofCode? (Coded.code v.1.domain) = some v.1.domain :=
    Coded.ofCode?_code v.1.domain
  rw [hdomain]
  exact RoundTrip.congr ((roundTrip_u64 _).bind <| (roundTrip_u64 _).bind <|
    (roundTrip_digest _).bind <| (roundTrip_boolean _).last _) (by simp)

theorem roundTrip_reassignmentEntry (hcw : cw < 2 ^ 32) (v : ExclusivityKey × List Micros) :
    RoundTrip (encReassignmentEntry v) cw (decReassignmentEntry b) n v
      (v.1.scope.value.length ≤ n ∧
        v.2.length ≤ (b.maxReassignmentsPerScope * 64).toNat) := by
  refine RoundTrip.congr ((roundTrip_token _).bind <| (roundTrip_u16 _).bind (b := v)
    (Q := v.2.length ≤ (b.maxReassignmentsPerScope * 64).toNat) ?_) (by simp)
  have hcls : FunctionClass.ofCode? v.1.cls.code = some v.1.cls := Coded.ofCode?_code v.1.cls
  rw [hcls]
  exact RoundTrip.congr ((roundTrip_entries hcw _ _ roundTrip_i64).last _) (by simp)

theorem roundTrip_idempotencyEntry (v : RequestId × IdempotencyEntry) :
    RoundTrip (encIdempotencyEntry v) cw (decIdempotencyEntry b) n v
      (v.1.value.length ≤ n ∧ v.2.response.length ≤ b.maxRecordBytes.toNat) :=
  RoundTrip.congr
    ((roundTrip_token _).bind <| (roundTrip_digest _).bind <| (roundTrip_reasonCode _ _).bind <|
      (roundTrip_i64 _).bind <| (roundTrip_takeBytes _ _).last _)
    (by simp)

instance (v : ScopeId × ScopeSpec) : Extends (encScopeEntry v) := by
  unfold encScopeEntry
  infer_instance

instance (v : ScopeId × ScopeSpec) : Writer.Grows (encScopeEntry v) := by
  unfold encScopeEntry
  infer_instance

instance (v : SourceKey × SourceState) : Extends (encSourceEntry v) := by
  unfold encSourceEntry
  infer_instance

instance (v : SourceKey × SourceState) : Writer.Grows (encSourceEntry v) := by
  unfold encSourceEntry
  infer_instance

instance {α : Type} (e : α → Writer) [∀ a, Extends (e a)] (xs : List α) :
    Extends (encEntries e xs) := by
  unfold encEntries
  infer_instance

instance (v : ExclusivityKey × List Micros) : Extends (encReassignmentEntry v) := by
  unfold encReassignmentEntry
  infer_instance

instance (v : ExclusivityKey × List Micros) : Writer.Grows (encReassignmentEntry v) := by
  unfold encReassignmentEntry
  infer_instance

instance (v : RequestId × IdempotencyEntry) : Extends (encIdempotencyEntry v) := by
  unfold encIdempotencyEntry
  infer_instance

instance (v : RequestId × IdempotencyEntry) : Writer.Grows (encIdempotencyEntry v) := by
  unfold encIdempotencyEntry
  infer_instance

instance {α : Type} (e : α → Writer) [h : ∀ a, Extends (e a)] (v : Option α) :
    Extends (encOption e v) := by
  cases v with
  | none => exact inferInstanceAs (Extends (Writer.boolean _))
  | some a =>
      unfold encOption
      infer_instance

instance (s : FabricState) : Extends (encState s) := by
  unfold encState
  infer_instance

private theorem getElem?_foldl_insertIfNew {κ α : Type} [Ord κ] [Std.TransOrd κ]
    [Std.LawfulEqOrd κ] [DecidableEq κ] (entries : List (κ × α)) (m : Std.ExtTreeMap κ α)
    (k : κ) : (entries.foldl (fun m e ↦ m.insertIfNew e.1 e.2) m)[k]? =
      (m[k]?).or ((entries.find? fun e ↦ e.1 = k).map Prod.snd) := by
  induction entries generalizing m with
  | nil => simp
  | cons e entries ih =>
      rw [List.foldl_cons, ih, Std.ExtTreeMap.getElem?_insertIfNew, List.find?_cons]
      simp only [Std.LawfulEqCmp.compare_eq_iff_eq]
      by_cases hk : e.1 = k
      · subst hk
        by_cases hm : e.1 ∈ m <;> simp [hm]
      · simp [hk]

/-- A map is rebuilt from its entries. -/
theorem emplaceAll_toList {κ α : Type} [Ord κ] [Std.TransOrd κ] [Std.LawfulEqOrd κ]
    [DecidableEq κ] (m : Std.ExtTreeMap κ α) : emplaceAll m.toList = m := by
  refine Std.ExtTreeMap.ext_getElem? fun {k} ↦ ?_
  unfold emplaceAll
  rw [getElem?_foldl_insertIfNew, Std.ExtTreeMap.getElem?_empty, Option.none_or]
  cases hm : m[k]? with
  | none =>
      rw [Option.map_eq_none_iff, List.find?_eq_none]
      rintro ⟨k', v⟩ hmem hk
      obtain rfl : k' = k := by simpa using hk
      rw [Std.ExtTreeMap.mem_toList_iff_getElem?_eq_some.mp hmem] at hm
      cases hm
  | some v =>
      have hmem := Std.ExtTreeMap.mem_toList_iff_getElem?_eq_some.mpr hm
      cases hf : m.toList.find? fun e ↦ decide (e.1 = k) with
      | none =>
          have hnone := List.find?_eq_none.mp hf _ hmem
          rw [decide_eq_true_eq] at hnone
          exact absurd rfl hnone
      | some e =>
          have hk : e.1 = k := by simpa using List.find?_some hf
          have := Std.ExtTreeMap.mem_toList_iff_getElem?_eq_some.mp (List.mem_of_find?_eq_some hf)
          rw [hk, hm] at this
          exact this.symm

/-! ## The state -/

end Wire

namespace FabricState

open Wire

/-- The state a snapshot of it restores: what is derived from the rest is left empty. -/
def restored (s : FabricState) : FabricState :=
  { s with
    exclusiveByClass := ∅
    exclusiveByScope := ∅
    committed := ∅
    idempotencyOrder := s.idempotency.toList.map Prod.fst }

/-- The state `decode_state` reads back under the given bounds. -/
structure Readable (b : Bounds) (n : Nat) (s : FabricState) : Prop where
  boot : s.epoch.boot.value.length ≤ n
  functions : s.functions.values.length ≤ b.maxFunctions.toNat ∧
    ∀ v ∈ s.functions.values, v.Readable b n
  topology : ∀ v ∈ s.topology, v.Readable b n
  capabilities : s.capabilities.values.length ≤ b.maxCapabilityRecords.toNat ∧
    ∀ v ∈ s.capabilities.values, v.Readable n
  policy : ∀ v ∈ s.policy, v.Readable b n
  observations : s.observations.values.length ≤ b.maxObservations.toNat ∧
    ∀ v ∈ s.observations.values, v.Readable n
  authority : s.authority.values.length ≤ b.maxAuthorityGrants.toNat ∧
    ∀ v ∈ s.authority.values, v.Readable n
  assignments : s.assignments.values.length ≤ b.maxAssignments.toNat ∧
    ∀ v ∈ s.assignments.values, v.Readable b n
  scopeSpecs : s.scopeSpecs.toList.length ≤ b.maxScopes.toNat ∧
    ∀ v ∈ s.scopeSpecs.toList, v.1.value.length ≤ n ∧ TextsFit n v.2.texts
  sources : s.sources.toList.length ≤ b.maxSources.toNat ∧
    ∀ v ∈ s.sources.toList, v.1.source.value.length ≤ n
  reassignments : s.reassignments.toList.length ≤ b.maxScopes.toNat ∧
    ∀ v ∈ s.reassignments.toList, v.1.scope.value.length ≤ n ∧
      v.2.length ≤ (b.maxReassignmentsPerScope * 64).toNat
  idempotency : s.idempotency.toList.length ≤ b.maxIdempotencyEntries.toNat ∧
    ∀ v ∈ s.idempotency.toList, v.1.value.length ≤ n ∧
      v.2.response.length ≤ b.maxRecordBytes.toNat

end FabricState

namespace Wire

theorem roundTrip_stateFields (hcw : cw < 2 ^ 32) (s : FabricState) :
    RoundTrip (encState s) cw (decStateFields b) n s.restored (s.Readable b n) := by
  refine RoundTrip.congr ((roundTrip_u16 _).bind (b := s.restored) (Q := s.Readable b n) ?_)
    (by simp)
  rw [if_neg (by simp)]
  refine RoundTrip.congr
    ((roundTrip_epoch _).bind <| (roundTrip_u64 _).bind <| (roundTrip_u64 _).bind <|
      (roundTrip_u64 _).bind <| (roundTrip_u64 _).bind <| (roundTrip_u64 _).bind <|
      (roundTrip_u64 _).bind <|
      (roundTrip_entries hcw _ _ roundTrip_function).bind <|
      (roundTrip_option _ roundTrip_topology).bind <| (roundTrip_digest _).bind <|
      (roundTrip_entries hcw _ _ roundTrip_capabilityRecord).bind <|
      (roundTrip_option _ roundTrip_policy).bind <| (roundTrip_digest _).bind <|
      (roundTrip_entries hcw _ _ roundTrip_observation).bind <|
      (roundTrip_entries hcw _ _ roundTrip_authority).bind <|
      (roundTrip_entries hcw _ _ roundTrip_assignment).bind <|
      (roundTrip_entries hcw _ _ roundTrip_scopeEntry).bind <|
      (roundTrip_entries hcw _ _ roundTrip_sourceEntry).bind <|
      (roundTrip_entries hcw _ _ (roundTrip_reassignmentEntry hcw)).bind <|
      (roundTrip_entries hcw _ _ roundTrip_idempotencyEntry).followed fun rest ↦ ?_) ?_
  · rw [Table.ofList_values, Table.ofList_values, Table.ofList_values, Table.ofList_values,
      Table.ofList_values, emplaceAll_toList, emplaceAll_toList, emplaceAll_toList,
      emplaceAll_toList]
    rfl
  · constructor
    · intro h
      simp only [true_and] at h
      obtain ⟨h1, h2, h3, h4, h5, h6, h7, h8, h9, h10, h11, h12⟩ := h
      exact ⟨h1, h2, h3, h4, h5, h6, h7, h8, h9, h10, h11, h12⟩
    · intro h
      simp only [true_and]
      exact ⟨h.boot, h.functions, h.topology, h.capabilities, h.policy, h.observations,
        h.authority, h.assignments, h.scopeSpecs, h.sources, h.reassignments, h.idempotency⟩

/-- `decode_state` on an encoded state gives what it restores, exactly when it is readable. -/
theorem decState_eq_ok {limit : Nat} (hlimit : limit < 2 ^ 32) {s t : FabricState}
    {payload : Bytes} (h : (encState s).encode limit = .ok payload) :
    (decState b).decode n payload = .ok t ↔ s.Readable b n ∧ t = s.restored := by
  obtain ⟨p, hp, ha, hr⟩ := roundTrip_stateFields (b := b) (n := n) hlimit s [] payload
    (Writer.encode_eq_ok.mp h)
  rw [List.nil_append] at hp
  subst hp
  unfold Reader.decode decState
  rw [run_bind]
  by_cases hs : s.Readable b n
  · have := ha hs []
    rw [List.append_nil] at this
    rw [this]
    change Except.ok s.restored = Except.ok t ↔ _
    rw [Except.ok.injEq, eq_comm]
    exact (and_iff_right hs).symm
  · obtain ⟨e, u, he⟩ := hr hs []
    rw [List.append_nil] at he
    rw [he]
    simp [hs]

end Wire

namespace Fabric

open Wire

/-- How a start reads an envelope, `src/fabric.cpp:2636-2655`. -/
private def readEnvelope (max : Nat) : Reader (Bytes × Digest × Bool) := do
  let payload ← Reader.takeBytes max
  let digest ← Reader.digest
  let atEnd ← Reader.atEnd
  return (payload, digest, atEnd)

/-- The payload and the digest of a snapshot envelope are what was put there, exactly when the
payload is within the reader's limit. -/
private theorem decode_envelope {limit max n : Nat} {payload envelope : Bytes}
    {x : Bytes × Digest × Bool}
    (h : Writer.encode (do Writer.text payload; Writer.digest (sha256 payload)) limit =
      .ok envelope) :
    (readEnvelope max).decode n envelope = .ok x ↔
      payload.length ≤ max ∧ x = (payload, sha256 payload, true) := by
  obtain ⟨u, p, hp, hd⟩ := run_bind_ok (Writer.encode_eq_ok.mp h)
  have htext : RoundTrip (Writer.text payload) limit (Reader.takeBytes max) n payload
    (payload.length ≤ max) := roundTrip_takeBytes payload max
  have hsum : RoundTrip (Writer.digest (sha256 payload)) limit Reader.digest n (sha256 payload)
    True := roundTrip_digest _
  obtain ⟨p', hp', hp1, hp2⟩ := htext [] p hp
  obtain ⟨q, hq, hq1, -⟩ := hsum p envelope hd
  rw [List.nil_append] at hp'
  subst hp' hq
  unfold Reader.decode readEnvelope
  by_cases hlen : payload.length ≤ max
  · have hdigest := hq1 trivial []
    rw [List.append_nil] at hdigest
    simp only [run_bind, hp1 hlen q, hdigest, hlen, true_and]
    change Except.ok (payload, sha256 payload, true) = Except.ok x ↔ _
    rw [Except.ok.injEq, eq_comm]
  · obtain ⟨e, t, he⟩ := hp2 hlen q
    simp [run_bind, he, hlen]

/-- What a start makes of a snapshot that a compaction installed, under whatever bounds: the state
it restores, exactly when the payload is within the start's limit and the state is readable. -/
private theorem openSnapshot_iff {b b' : Bounds} {s t : FabricState} {envelope : Bytes}
    (h : snapshotEnvelope b' s = .ok envelope) :
    ∃ payload : Bytes, payload.length ≤ envelope.length ∧
      (openSnapshot b envelope = .ok t ↔
        payload.length ≤ b.maxSnapshotBytes.toNat ∧ s.Readable b b.maxTextBytes.toNat ∧
          t = s.restored) := by
  unfold snapshotEnvelope at h
  obtain ⟨payload, hpayload, h⟩ := bind_eq_ok.mp h
  obtain ⟨env, henv, h⟩ := bind_eq_ok.mp h
  obtain ⟨_, hfit, h⟩ := bind_eq_ok.mp h
  cases h
  obtain ⟨_, p, htext, hdigest⟩ := run_bind_ok (Writer.encode_eq_ok.mp henv)
  obtain ⟨hsmall, w, hw⟩ := Writer.text_run_ok htext
  have hrun := Writer.encode_length hpayload
  have hdone := decState_eq_ok (b := b) (n := b.maxTextBytes.toNat) (t := t) hsmall hrun
  have hlong : payload.length ≤ envelope.length := by
    obtain ⟨q, hq, -⟩ := @roundTrip_digest _ 0 (sha256 payload) p envelope hdigest
    rw [hq, hw]
    simp only [List.length_append]
    omega
  refine ⟨payload, hlong, ?_⟩
  unfold openSnapshot
  change (Reader.decode (readEnvelope b.maxSnapshotBytes.toNat) _ envelope >>= _) = _ ↔ _
  rw [bind_eq_ok]
  constructor
  · rintro ⟨x, hx, hrest⟩
    obtain ⟨hlen, rfl⟩ := (decode_envelope henv).mp hx
    obtain ⟨_, -, hrest⟩ := bind_eq_ok.mp hrest
    obtain ⟨_, -, hrest⟩ := bind_eq_ok.mp hrest
    exact ⟨hlen, hdone.mp hrest⟩
  · rintro ⟨hlen, ht⟩
    refine ⟨_, (decode_envelope henv).mpr ⟨hlen, rfl⟩, ?_⟩
    refine bind_eq_ok.mpr ⟨(), require_eq_ok.mpr rfl, bind_eq_ok.mpr ⟨(), require_eq_ok.mpr rfl, ?_⟩⟩
    exact hdone.mpr ht

/-- A snapshot that a compaction installed, under whatever bounds, is opened as what it
restores. -/
theorem openSnapshot_of_written {b b' : Bounds} {s t : FabricState} {envelope : Bytes}
    (h : snapshotEnvelope b' s = .ok envelope) (ht : openSnapshot b envelope = .ok t) :
    s.Readable b b.maxTextBytes.toNat ∧ t = s.restored := by
  obtain ⟨payload, -, hiff⟩ := openSnapshot_iff h
  exact (hiff.mp ht).2

/-- What a start makes of the snapshot a compaction installed: the state it restores, exactly
when the state is readable. -/
theorem openSnapshot_eq_ok {b : Bounds} {s t : FabricState} {envelope : Bytes}
    (h : snapshotEnvelope b s = .ok envelope) :
    openSnapshot b envelope = .ok t ↔
      s.Readable b b.maxTextBytes.toNat ∧ t = s.restored := by
  have hmax : envelope.length ≤ b.maxSnapshotBytes.toNat := by
    unfold snapshotEnvelope at h
    obtain ⟨_, -, h⟩ := bind_eq_ok.mp h
    obtain ⟨_, -, h⟩ := bind_eq_ok.mp h
    obtain ⟨_, hfit, h⟩ := bind_eq_ok.mp h
    cases h
    exact require_eq_ok.mp hfit
  obtain ⟨payload, hlen, hiff⟩ := openSnapshot_iff h
  rw [hiff]
  exact and_iff_right (hlen.trans hmax)

end Fabric

end OffloadFabric
