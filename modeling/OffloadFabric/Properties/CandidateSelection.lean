import OffloadFabric.Fabric.Mirror
import OffloadFabric.Fabric.Selection
import OffloadFabric.Properties.Utilization

/-!
# Candidate selection

The device a plan selects is the least eligible candidate, and the reason it refuses with is that
of the least refused one (`src/fabric.cpp:1346-1401,2430-2502`). The devices of a topology are
distinct in every run, so the least candidate is the only one.
-/

namespace OffloadFabric

open Lib TokenOrder FabricState

/-! ## Composite ranks -/

namespace CandidateEvaluation

/-- The components of a ranked candidate are small, and its composite rank packs them. -/
structure Ranked (e : CandidateEvaluation) : Prop where
  offload : e.offloadRank.toNat ≤ 1
  kind : e.kindRank.toNat ≤ 3
  locality : e.localityRank.toNat ≤ 2
  utilization : e.utilizationPpm.toNat ≤ 1000000
  rank : e.rank = e.offloadRank.toUInt64 * 1000000000000 + e.kindRank.toUInt64 * 10000000000 +
    e.localityRank.toUInt64 * 100000000 + e.utilizationPpm

/-- No component of a composite rank overflows into the next. -/
theorem Ranked.toNat_rank {e : CandidateEvaluation} (h : e.Ranked) :
    e.rank.toNat = e.offloadRank.toNat * 1000000000000 + e.kindRank.toNat * 10000000000 +
      e.localityRank.toNat * 100000000 + e.utilizationPpm.toNat := by
  obtain ⟨hoffload, hkind, hlocality, hutilization, hrank⟩ := h
  have hconst : (1000000000000 : UInt64).toNat = 1000000000000 ∧
      (10000000000 : UInt64).toNat = 10000000000 ∧ (100000000 : UInt64).toNat = 100000000 :=
    ⟨rfl, rfl, rfl⟩
  obtain ⟨h₁, h₂, h₃⟩ := hconst
  rw [hrank]
  simp only [UInt64.toNat_add, UInt64.toNat_mul, UInt32.toNat_toUInt64, h₁, h₂, h₃]
  omega

/-- **The composite rank orders candidates as their components do**, but for the devices. -/
theorem Ranked.rank_lt_iff {l r : CandidateEvaluation} (hl : l.Ranked) (hr : r.Ranked) :
    l.rank < r.rank ↔ l.ranks < r.ranks := by
  rw [ranks_lt_iff, UInt64.lt_iff_toNat_lt, hl.toNat_rank, hr.toNat_rank]
  obtain ⟨hloffload, hlkind, hllocality, hlutilization, -⟩ := hl
  obtain ⟨hroffload, hrkind, hrlocality, hrutilization, -⟩ := hr
  simp only [UInt32.lt_iff_toNat_lt, UInt64.lt_iff_toNat_lt, ← UInt32.toNat_inj]
  omega

end CandidateEvaluation

theorem toNat_kindRank_le (kind : DeviceKind) : (kindRank kind).toNat ≤ 3 := by
  cases kind <;> decide

/-- A candidate that was not ranked before is ranked. -/
theorem ranked_finalizeRanking {e : CandidateEvaluation} (h : e.localityRank = 0)
    (capacity : CapacityVector) (committed : DemandVector) (scope : ScopeSpec)
    (preferredHosts : List HostId) :
    (finalizeRanking e capacity committed scope preferredHosts).Ranked := by
  unfold finalizeRanking
  extract_lets offloadRank localityRank utilization
  have hlocality : localityRank.toNat ≤ 2 := by
    unfold localityRank
    rw [if_neg (not_not_intro h)]
    split
    · decide
    · split <;> decide
  have hoffload : offloadRank.toNat ≤ 1 := by
    unfold offloadRank
    split <;> decide
  exact ⟨hoffload, toNat_kindRank_le _, hlocality, utilizationPpm_le _ _, rfl⟩

/-- Every candidate of a plan is ranked. -/
theorem FabricState.ranked_planCandidate (s : FabricState) (c : EvaluationContext)
    (d : DeviceRecord) : (s.planCandidate c d).Ranked := by
  have hranked := ranked_finalizeRanking (@EvaluationContext.evaluateDevice_unranked c d).2
    d.capacity (s.committedDemandFor d.id) c.request.scope c.request.preferredHosts
  unfold planCandidate
  extract_lets e
  split
  · exact ⟨hranked.offload, hranked.kind, hranked.locality, hranked.utilization, hranked.rank⟩
  · exact ⟨hranked.offload, hranked.kind, hranked.locality, hranked.utilization, hranked.rank⟩

/-! ## Distinct devices -/

namespace FabricState

/-- The devices of the topology are distinct. -/
def DevicesDistinct (s : FabricState) : Prop :=
  ∀ t, s.topology = some t → (t.devices.map (·.id)).Nodup

end FabricState

/-- Devices in canonical order are distinct. -/
theorem nodup_of_validateTopology {t : TopologySnapshot} {b : Bounds}
    (h : validateTopology t b = .ok ()) : (t.devices.map (·.id)).Nodup := by
  have hordered : checkCanonicalOrder t = .ok () := by
    unfold validateTopology at h
    obtain ⟨_, -, h⟩ := bind_eq_ok.mp h
    obtain ⟨-, h⟩ := require_bind_eq_ok.mp h
    obtain ⟨-, h⟩ := require_bind_eq_ok.mp h
    obtain ⟨_, -, h⟩ := bind_eq_ok.mp h
    obtain ⟨-, h⟩ := require_bind_eq_ok.mp h
    obtain ⟨-, h⟩ := require_bind_eq_ok.mp h
    obtain ⟨-, h⟩ := require_bind_eq_ok.mp h
    obtain ⟨-, h⟩ := require_bind_eq_ok.mp h
    obtain ⟨_, horder, -⟩ := bind_eq_ok.mp h
    exact horder
  unfold checkCanonicalOrder at hordered
  obtain ⟨-, hordered⟩ := require_bind_eq_ok.mp hordered
  obtain ⟨hdevices, -⟩ := require_bind_eq_ok.mp hordered
  have htrans : IsTrans DeviceRecord fun d d' ↦ d.id < d'.id := ⟨fun _ _ _ ↦ lt_trans⟩
  have hpairwise := @pairwise_of_adjacent _ (fun d d' : DeviceRecord ↦ d.id < d'.id) htrans _
    hdevices
  exact List.pairwise_map.mpr (hpairwise.imp fun hlt ↦ ne_of_lt hlt)

/-- **The devices of a running runtime are distinct**, after every run. -/
theorem run_devicesDistinct (c : FabricConfig) (steps : List Step)
    (hrun : (run c steps).running = true) : (run c steps).state.DevicesDistinct := by
  refine run_durable (P := DevicesDistinct) ?_ ?_ ?_ ?_ steps hrun
  · intro s t hdurable hs x hx
    have htopology : t.topology = s.topology := hdurable .topology
    exact hs x (htopology ▸ hx)
  · intro t ht
    cases ht
  · intro now s op d hd hs t ht
    cases Op.delivery_accepts hd with
    | topology hvalid _ _ =>
      cases ht
      exact nodup_of_validateTopology hvalid
    | _ => exact hs t ht
  · intro s assignments hs
    exact hs

/-! ## Selections -/

/-- The plan is for the only least eligible candidate; where none is eligible it is refused with
the reason of the only least candidate. -/
structure Selects (candidates : List CandidateEvaluation) (planned : PlanResult) : Prop where
  selected : (∃ e ∈ candidates, e.eligible = true) → ∃ m ∈ candidates, m.eligible = true ∧
    planned.plan.device = m.device ∧
    ∀ e ∈ candidates, e.eligible = true → e ≠ m → m.key < e.key
  refused : (∀ e ∈ candidates, e.eligible = false) → candidates ≠ [] → ∃ m ∈ candidates,
    planned.decision = .refuse ∧ planned.primaryReason = m.reason ∧
    ∀ e ∈ candidates, e ≠ m → m.key < e.key

namespace FabricState

variable {s : FabricState} {b : Bounds} {c : EvaluationContext} {t : TopologySnapshot}

/-- An accepted plan is for the selected candidate, also where no grant admits it. -/
private theorem acceptedPlan_device (base : PlanResult) (truncated : Bool)
    (selected : CandidateEvaluation) :
    (s.acceptedPlan b c base truncated selected).plan.device = selected.device := by
  have hplan : (s.planFor b c base.explanation.binding selected).device = selected.device := by
    unfold planFor
    extract_lets effective plan
    split <;> rfl
  unfold acceptedPlan
  extract_lets plan
  split
  · exact hplan
  · exact hplan

/-- A plan over candidates selects the least. -/
theorem selects_planCandidates (h : (t.devices.map (·.id)).Nodup) (explanation : Explanation) :
    Selects (s.evaluated b c t) (s.planCandidates b c t explanation) := by
  have hkey := @key_injective_evaluated s b c t h
  unfold planCandidates
  extract_lets limit truncated candidates reported base
  have hcandidates : candidates = s.evaluated b c t := rfl
  rw [← hcandidates] at hkey ⊢
  clear_value base candidates
  constructor
  · rintro ⟨e, he, heligible⟩
    cases hbest : bestCandidate (candidates.filter (·.eligible)) with
    | none =>
      have hnil := bestCandidate_eq_none.mp hbest
      have hmem := List.mem_filter.mpr ⟨he, heligible⟩
      rw [hnil] at hmem
      cases hmem
    | some m =>
      have hleast := isLeastOf_bestCandidate hbest
      obtain ⟨hm, hmeligible⟩ := List.mem_filter.mp hleast.mem
      refine ⟨m, hm, hmeligible, acceptedPlan_device _ _ _, fun e he heligible hne ↦ ?_⟩
      apply hleast.lt _ (List.mem_filter.mpr ⟨he, heligible⟩) hne
      intro x hx y hy
      exact hkey x (List.mem_of_mem_filter hx) y (List.mem_of_mem_filter hy)
  · intro hnone hne
    have heligible : candidates.filter (·.eligible) = [] := by
      apply List.filter_eq_nil_iff.mpr
      intro e he
      rw [hnone e he]
      decide
    have hrefused : candidates.filter (fun e ↦ !e.eligible) = candidates := by
      apply List.filter_eq_self.mpr
      intro e he
      rw [hnone e he]
      rfl
    cases hbest : bestCandidate candidates with
    | none => exact absurd (bestCandidate_eq_none.mp hbest) hne
    | some m =>
      have hleast := isLeastOf_bestCandidate hbest
      refine ⟨m, hleast.mem, ?_, ?_, fun e he hne ↦ hleast.lt hkey he hne⟩
      · rw [heligible]
        rfl
      · rw [heligible]
        change primaryRefusalReason candidates = m.reason
        unfold primaryRefusalReason
        rw [hrefused, hbest]

end FabricState

/-- **Candidate selection is the lexicographic minimum**: in every running state, a request that
reaches its candidates is planned for the only least eligible one, or refused with the reason of
the least; and composite ranks order all candidates as their components do. -/
theorem plan_selects_least (c : FabricConfig) (steps : List Step) {request : PlacementRequest}
    {now : Micros} {t : TopologySnapshot} {ctx : EvaluationContext}
    (hrun : (run c steps).running = true)
    (hplanning : (run c steps).state.Planning c.bounds request now t ctx)
    (hfunction : request.function ≠ .empty) :
    (∃ planned, (run c steps).state.planLocked c.bounds request false now = .ok planned ∧
        Selects ((run c steps).state.evaluated c.bounds ctx t) planned) ∧
      ∀ (s s' : FabricState) (ctx ctx' : EvaluationContext) (d d' : DeviceRecord),
        (s.planCandidate ctx d).rank < (s'.planCandidate ctx' d').rank ↔
          (s.planCandidate ctx d).ranks < (s'.planCandidate ctx' d').ranks := by
  constructor
  · have hdistinct := run_devicesDistinct c steps hrun t hplanning.evidence.topology
    exact ⟨_, planLocked_of_planning hplanning hfunction, selects_planCandidates hdistinct _⟩
  · intro s s' ctx ctx' d d'
    exact (s.ranked_planCandidate ctx d).rank_lt_iff (s'.ranked_planCandidate ctx' d')

namespace Sample

/-- Whether the runtime runs and plans the placement without a refusal. -/
def plans (m : Impl) : Bool :=
  m.running &&
    match m.state.planLocked ({} : FabricConfig).bounds request false 2 with
    | .ok planned => decide (planned.decision ≠ .refuse)
    | .error _ => false

private theorem plans_ready : plans (run {} ready) = true := by decide +kernel

end Sample

/-- The placement of the small deployment is planned for its least candidate. -/
theorem plan_selects_least_ready : ∃ t ctx planned,
    (run {} Sample.ready).state.planLocked ({} : FabricConfig).bounds Sample.request false 2 =
        .ok planned ∧
      Selects ((run {} Sample.ready).state.evaluated ({} : FabricConfig).bounds ctx t)
        planned := by
  have hplans := Sample.plans_ready
  obtain ⟨hrun, hplans⟩ := Bool.and_eq_true_iff.mp hplans
  split at hplans
  · next planned hplanned =>
    obtain ⟨t, ctx, -, hplanning, -⟩ := planLocked_ok hplanned (of_decide_eq_true hplans)
    obtain ⟨⟨planned, hplanned, hselects⟩, -⟩ :=
      plan_selects_least {} Sample.ready hrun hplanning (by decide)
    exact ⟨t, ctx, planned, hplanned, hselects⟩
  · cases hplans

end OffloadFabric
