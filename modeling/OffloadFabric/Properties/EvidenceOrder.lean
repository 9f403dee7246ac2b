import OffloadFabric.Fabric.Committed

/-!
# Evidence moves forward

What a store-backed runtime commits of a source, of the topology, of the policy and of the
capabilities of a device is in order over the whole run, restarts, crashes and compactions
included: each delivery is judged against the latest one (`src/fabric.cpp:1504-1528,2889-3096`),
and the runtime holds the latest one whenever it runs.
-/

namespace OffloadFabric

open Lib Lib.Fallible FabricState

variable {c : FabricConfig}

/-- **Committed values are ordered** when every accepted delivery brings ordered values above the
latest one of the state it is judged in. -/
theorem committed_pairwise {β : Type} {R : β → β → Prop} [IsTrans β R] {f : Op → List β}
    (hstore : c.hasStore = true)
    (hop : ∀ (now : ClockReadings) (s : FabricState) (ops : List Op) (op : Op) (d : Delivery),
      s.Latest ops → op.delivery c now s = .ok (some d) →
        (f op).Pairwise R ∧ ∀ b, latest f ops = some b → ∀ b' ∈ f op, R b b')
    (steps : List Step) : ((committed c steps).flatMap f).Pairwise R := by
  induction steps using List.reverseRecOn with
  | nil => exact .nil
  | append_singleton steps st ih =>
    rw [committed_append]
    have hcommitment := st.commitment c (run c steps)
    generalize st.commits c (run c steps) = new at hcommitment
    cases hcommitment with
    | idle _ => rwa [List.append_nil]
    | failed _ _ _ => rwa [List.append_nil]
    | delivered hrun hd _ =>
      have hlatest := (keeps_latest hstore steps).held hrun
      obtain ⟨hown, habove⟩ := hop st.now _ _ st.op _ hlatest hd
      exact pairwise_append_of_latest ih hown habove

/-! ## Sequences of a source -/

/-- A new delivery is above the mark of its source. -/
theorem FabricState.acceptEvidence_above {s : FabricState} {source : SourceId}
    {domain : EvidenceDomain} {sequence : UInt64} {digest : Digest}
    (h : s.acceptEvidence source domain sequence digest = .ok false) {entry : SourceState}
    (hentry : s.sources[SourceKey.mk source domain]? = some entry) (hseen : entry.seen = true) :
    entry.lastSequence < sequence := by
  unfold acceptEvidence at h
  obtain ⟨-, h⟩ := require_bind_eq_ok.mp h
  rw [hentry] at h
  simp only [hseen, if_true] at h
  obtain ⟨hle, h⟩ := require_bind_eq_ok.mp h
  split at h
  · -- a repeated sequence is a duplicate or a conflict
    obtain ⟨-, h⟩ := require_bind_eq_ok.mp h
    cases h
  · next hne => exact lt_of_le_of_ne (not_lt.mp hle) (Ne.symm hne)

/-- The committed sequences of a source in a domain strictly increase. -/
theorem committed_sequences_increase (c : FabricConfig) (hstore : c.hasStore = true)
    (steps : List Step) (k : SourceKey) :
    ((committed c steps).flatMap (Op.sequences k)).Pairwise (· < ·) := by
  refine committed_pairwise hstore (fun now s ops op d hlatest hd ↦ ?_) steps
  have haccepts := (Op.delivery_accepts hd).sources
  have hsequences : op.sequences k = [] ∨ ∃ sequence digest, op.sequences k = [sequence] ∧
      s.acceptEvidence k.source k.domain sequence digest = .ok false := by
    unfold Op.sequences
    rcases haccepts with ⟨hnone, -⟩ | ⟨source, domain, sequence, digest, hsome, haccept, -⟩
    · rw [hnone]
      exact .inl rfl
    · rw [hsome]
      simp only
      split
      · next hk => exact .inr ⟨sequence, digest, rfl, hk ▸ haccept⟩
      · exact .inl rfl
  rcases hsequences with hnone | ⟨sequence, digest, hone, haccept⟩
  · rw [hnone]
    exact ⟨.nil, fun _ _ _ hmem ↦ absurd hmem List.not_mem_nil⟩
  · rw [hone]
    refine ⟨List.pairwise_singleton _ _, fun before hbefore sequence' hmem ↦ ?_⟩
    rw [List.mem_singleton.mp hmem]
    have hmark := hlatest.mark k
    rw [hbefore, Option.map_some, Option.map_eq_some_iff] at hmark
    obtain ⟨entry, hentry, heq⟩ := hmark
    obtain ⟨hseen, hlast⟩ := Prod.mk.inj heq
    rw [← hlast]
    exact acceptEvidence_above haccept hentry hseen

/-! ## Generations of snapshots -/

theorem le_of_checkGeneration {current : Option (Gen × Digest)} {generation : Gen}
    {digest : Digest} {field : String} {u : Unit}
    (h : checkGeneration current generation digest field = .ok u) {existing : Gen × Digest}
    (hcurrent : current = some existing) : existing.1 ≤ generation := by
  subst hcurrent
  obtain ⟨hle, -⟩ := require_bind_eq_ok.mp h
  exact not_lt.mp hle

/-- A delivered topology is not older than the one held. -/
theorem FabricState.topologyDelivery_generation {s : FabricState} {b : Bounds}
    {t current : TopologySnapshot} {d : Delivery} (h : s.topologyDelivery b t = .ok (some d))
    (hcurrent : s.topology = some current) : current.generation ≤ t.generation := by
  unfold topologyDelivery at h
  obtain ⟨-, -, h⟩ := bind_eq_ok.mp h
  obtain ⟨digest, -, h⟩ := bind_eq_ok.mp h
  obtain ⟨duplicate, -, h⟩ := bind_eq_ok.mp h
  split at h
  · cases h
  · obtain ⟨u, hcheck, -⟩ := bind_eq_ok.mp h
    rw [hcurrent] at hcheck
    exact le_of_checkGeneration hcheck rfl

/-- A delivered policy is not older than the one held. -/
theorem FabricState.policyDelivery_generation {s : FabricState} {b : Bounds}
    {p current : PolicySnapshot} {d : Delivery} (h : s.policyDelivery b p = .ok (some d))
    (hcurrent : s.policy = some current) : current.generation ≤ p.generation := by
  unfold policyDelivery at h
  obtain ⟨-, -, h⟩ := bind_eq_ok.mp h
  obtain ⟨digest, -, h⟩ := bind_eq_ok.mp h
  obtain ⟨duplicate, -, h⟩ := bind_eq_ok.mp h
  split at h
  · cases h
  · obtain ⟨u, hcheck, -⟩ := bind_eq_ok.mp h
    rw [hcurrent] at hcheck
    exact le_of_checkGeneration hcheck rfl

/-! ## Generations of capabilities -/

/-- Two capability records claim the same, as `capability_records_conflict` compares them
(`src/capability.cpp:173-181`). -/
structure CapabilityRecord.SameContent (r r' : CapabilityRecord) : Prop where
  supported : r.supported = r'.supported
  unsupported : r.unsupported = r'.unsupported
  unknown : r.unknown = r'.unknown
  versionRange : r.versionRange = r'.versionRange
  capacity : r.capacity = r'.capacity
  revoked : r.revoked = r'.revoked
  incarnation : r.incarnation = r'.incarnation

/-- A capability record that may follow another of its device and class. -/
def CapabilityRecord.Follows (r r' : CapabilityRecord) : Prop :=
  r.generation < r'.generation ∨ r.generation = r'.generation ∧ r.SameContent r'

instance : IsTrans CapabilityRecord CapabilityRecord.Follows where
  trans r₁ r₂ r₃ := by
    rintro (hlt | ⟨heq, hsame⟩) (hlt' | ⟨heq', hsame'⟩)
    · exact .inl (hlt.trans hlt')
    · exact .inl (heq' ▸ hlt)
    · exact .inl (heq ▸ hlt')
    · exact .inr ⟨heq.trans heq', hsame.supported.trans hsame'.supported,
        hsame.unsupported.trans hsame'.unsupported, hsame.unknown.trans hsame'.unknown,
        hsame.versionRange.trans hsame'.versionRange, hsame.capacity.trans hsame'.capacity,
        hsame.revoked.trans hsame'.revoked, hsame.incarnation.trans hsame'.incarnation⟩

theorem sameContent_of_not_conflict {r r' : CapabilityRecord} (hkey : key r = key r')
    (h : ¬ capabilityRecordsConflict r' r = true) : r.SameContent r' := by
  obtain ⟨hdevice, hcls⟩ := CapabilityKey.mk.inj hkey
  unfold capabilityRecordsConflict at h
  rw [if_neg (by simp [hdevice, hcls])] at h
  simp only [ne_eq, Bool.or_eq_true, decide_eq_true_eq, not_or, not_not] at h
  obtain ⟨⟨⟨⟨⟨⟨h₁, h₂⟩, h₃⟩, h₄⟩, h₅⟩, h₆⟩, h₇⟩ := h
  exact ⟨h₁.symm, h₂.symm, h₃.symm, h₄.symm, h₅.symm, h₆.symm, h₇.symm⟩

/-- A checked record may follow the one held of its device and class. -/
theorem FabricState.follows_of_checkCapabilityGeneration {s : FabricState}
    {r existing : CapabilityRecord} {u : Unit} (h : s.checkCapabilityGeneration r = .ok u)
    (hexisting : s.capabilities.find? (key r) = some existing) : existing.Follows r := by
  have hlookup : s.lookupCapability r.device r.cls = some existing := hexisting
  have hkey : key existing = key r := s.capabilities.key_of_find? hexisting
  unfold checkCapabilityGeneration at h
  rw [hlookup] at h
  obtain ⟨hle, h⟩ := require_bind_eq_ok.mp h
  have hequal := require_eq_ok.mp h
  rcases lt_or_eq_of_le (not_lt.mp hle) with hlt | heq
  · exact .inl hlt
  · exact .inr ⟨heq, sameContent_of_not_conflict hkey fun hc ↦ hequal ⟨heq.symm, hc⟩⟩

/-- The records of a valid report are in strictly ascending order of device and class. -/
theorem ascending_of_validateCapabilityReport {report : CapabilityReport} {b : Bounds} {u : Unit}
    (h : validateCapabilityReport report b = .ok u) :
    report.records.Pairwise fun r r' ↦ compare (key r) (key r') = .lt := by
  unfold validateCapabilityReport at h
  obtain ⟨-, h⟩ := require_bind_eq_ok.mp h
  obtain ⟨-, -, h⟩ := bind_eq_ok.mp h
  obtain ⟨-, h⟩ := require_bind_eq_ok.mp h
  obtain ⟨-, h⟩ := require_bind_eq_ok.mp h
  obtain ⟨-, -, h⟩ := bind_eq_ok.mp h
  have : IsTrans CapabilityRecord fun r r' ↦ compare (key r) (key r') = .lt :=
    ⟨fun _ _ _ hab hbc ↦ Std.TransCmp.lt_trans hab hbc⟩
  apply pairwise_of_adjacent
  intro p hp
  have hp := forM_eq_ok.mp h p hp
  unfold checkCapabilityOrder at hp
  obtain ⟨hdistinct, hp⟩ := require_bind_eq_ok.mp hp
  have hordered := require_eq_ok.mp hp
  rw [not_or, not_and, not_not] at hordered
  have hlex : compare (key p.1) (key p.2) =
      (compare p.1.device p.2.device).then (compare p.1.cls.code p.2.cls.code) := rfl
  rw [hlex]
  cases hdevice : compare p.1.device p.2.device with
  | lt => rfl
  | eq =>
    have heq : p.1.device = p.2.device := Std.LawfulEqCmp.eq_of_compare hdevice
    exact if_pos (hordered.2 heq.symm)
  | gt => exact absurd (Std.OrientedCmp.lt_of_gt hdevice) hordered.1

/-- A report brings at most one record of a device and class. -/
theorem Op.capabilities_pairwise {report : CapabilityReport} {b : Bounds} {u : Unit}
    {R : CapabilityRecord → CapabilityRecord → Prop}
    (h : validateCapabilityReport report b = .ok u) (k : CapabilityKey) :
    (Op.capabilities k (.ingestCapabilities report)).Pairwise R := by
  have hascending := ascending_of_validateCapabilityReport h
  refine List.Pairwise.imp_of_mem (fun {r r'} hr hr' hlt ↦ ?_)
    (hascending.sublist List.filter_sublist)
  have hrk := (List.mem_filter.mp hr).2
  have hrk' := (List.mem_filter.mp hr').2
  simp only [decide_eq_true_eq] at hrk hrk'
  have hself : compare k k = .eq := Std.ReflCmp.compare_self
  rw [hrk, hrk', hself] at hlt
  cases hlt

theorem FabricState.capabilityDelivery_follows {s : FabricState} {b : Bounds}
    {report : CapabilityReport} {d : Delivery} (h : s.capabilityDelivery b report = .ok (some d))
    {r existing : CapabilityRecord} (hr : r ∈ report.records)
    (hexisting : s.capabilities.find? (key r) = some existing) : existing.Follows r := by
  unfold capabilityDelivery at h
  obtain ⟨-, -, h⟩ := bind_eq_ok.mp h
  obtain ⟨digest, -, h⟩ := bind_eq_ok.mp h
  obtain ⟨duplicate, -, h⟩ := bind_eq_ok.mp h
  split at h
  · cases h
  · obtain ⟨u, hcheck, -⟩ := bind_eq_ok.mp h
    exact follows_of_checkCapabilityGeneration (forM_eq_ok.mp hcheck r hr) hexisting

/-! ## Runs -/

/-- Evidence that moves forward. -/
structure MovesForward (ops : List Op) : Prop where
  sequences : ∀ k, (ops.flatMap (Op.sequences k)).Pairwise (· < ·)
  topologies : (ops.flatMap Op.topologies).Pairwise fun t t' ↦ t.generation ≤ t'.generation
  policies : (ops.flatMap Op.policies).Pairwise fun p p' ↦ p.generation ≤ p'.generation
  capabilities : ∀ k, (ops.flatMap (Op.capabilities k)).Pairwise CapabilityRecord.Follows

/-- No delivered topology is older than one committed before. -/
theorem committed_topologies_ordered (c : FabricConfig) (hstore : c.hasStore = true)
    (steps : List Step) : ((committed c steps).flatMap Op.topologies).Pairwise
      fun t t' ↦ t.generation ≤ t'.generation := by
  have : IsTrans TopologySnapshot fun t t' ↦ t.generation ≤ t'.generation :=
    ⟨fun _ _ _ h h' ↦ le_trans h h'⟩
  refine committed_pairwise hstore (fun now s ops op d hlatest hd ↦ ?_) steps
  cases op with
  | ingestTopology t =>
    refine ⟨List.pairwise_singleton _ t, fun current hcurrent t' hmem ↦ ?_⟩
    rw [List.mem_singleton.mp hmem]
    exact topologyDelivery_generation hd (hlatest.topology.trans hcurrent)
  | _ => exact ⟨.nil, fun _ _ _ hmem ↦ absurd hmem List.not_mem_nil⟩

/-- No delivered policy is older than one committed before. -/
theorem committed_policies_ordered (c : FabricConfig) (hstore : c.hasStore = true)
    (steps : List Step) : ((committed c steps).flatMap Op.policies).Pairwise
      fun p p' ↦ p.generation ≤ p'.generation := by
  have : IsTrans PolicySnapshot fun p p' ↦ p.generation ≤ p'.generation :=
    ⟨fun _ _ _ h h' ↦ le_trans h h'⟩
  refine committed_pairwise hstore (fun now s ops op d hlatest hd ↦ ?_) steps
  cases op with
  | ingestPolicy p =>
    refine ⟨List.pairwise_singleton _ p, fun current hcurrent p' hmem ↦ ?_⟩
    rw [List.mem_singleton.mp hmem]
    exact policyDelivery_generation hd (hlatest.policy.trans hcurrent)
  | _ => exact ⟨.nil, fun _ _ _ hmem ↦ absurd hmem List.not_mem_nil⟩

/-- The committed capabilities of a device and a class follow each other. -/
theorem committed_capabilities_follow (c : FabricConfig) (hstore : c.hasStore = true)
    (steps : List Step) (k : CapabilityKey) :
    ((committed c steps).flatMap (Op.capabilities k)).Pairwise CapabilityRecord.Follows := by
  refine committed_pairwise hstore (fun now s ops op d hlatest hd ↦ ?_) steps
  cases op with
  | ingestCapabilities report =>
    cases Op.delivery_accepts hd with
    | capabilities hvalid _ _ =>
      refine ⟨Op.capabilities_pairwise hvalid k, fun existing hexisting r hr ↦ ?_⟩
      obtain ⟨hmem, hk⟩ := List.mem_filter.mp hr
      have hkey : key r = k := of_decide_eq_true hk
      subst hkey
      exact capabilityDelivery_follows hd hmem ((hlatest.capability _).trans hexisting)
  | _ => exact ⟨.nil, fun _ _ _ hmem ↦ absurd hmem List.not_mem_nil⟩

end OffloadFabric
