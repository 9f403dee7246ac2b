import Mathlib.Data.Prod.Lex
import OffloadFabric.Fabric.Decisions
import OffloadFabric.Lib.Least

/-!
# The order of candidates

Candidates are compared by their ranks and, where these are equal, by their devices
(`src/fabric.cpp:1367-1381`). Here the comparison is read as a linear order of keys, the scans of
a plan as the least candidate under it, and the composite rank as the same order without the
devices.
-/

namespace OffloadFabric

open Lib

namespace TokenOrder

variable {d : IdDomain}

private theorem compare_swap (a b : Token d) : (compare a b).swap = compare b a :=
  Std.OrientedCmp.eq_swap.symm

private theorem compare_same (a : Token d) : compare a a = .eq := Std.ReflCmp.compare_self

/-- Tokens are linearly ordered by their bytes. -/
scoped instance : LinearOrder (Token d) where
  le a b := (compare a b).isLE
  lt a b := a < b
  le_refl a := by rw [compare_same]; rfl
  le_trans _ _ _ := Std.TransCmp.isLE_trans
  le_antisymm a b hab hba := Std.LawfulEqCmp.eq_of_compare (Std.OrientedCmp.isLE_antisymm hab hba)
  le_total a b := by
    rw [← compare_swap a b]
    cases compare a b with
    | gt => exact .inr rfl
    | _ => exact .inl rfl
  lt_iff_le_not_ge a b := by
    change compare a b = .lt ↔ _
    rw [← compare_swap a b]
    cases compare a b <;> decide
  toDecidableLE := inferInstance
  toDecidableEq := inferInstance
  toDecidableLT := inferInstance
  compare a b := compare a b
  compare_eq_compareOfLessAndEq a b := by
    unfold compareOfLessAndEq
    change _ = if compare a b = .lt then _ else _
    cases h : compare a b with
    | lt => rfl
    | eq =>
      rw [if_neg (by decide), if_pos (Std.LawfulEqCmp.eq_of_compare h)]
    | gt =>
      rw [if_neg (by decide), if_neg]
      rintro rfl
      rw [compare_same] at h
      cases h

end TokenOrder

open TokenOrder

namespace CandidateEvaluation

/-- The components a candidate is compared by before its device. -/
def ranks (e : CandidateEvaluation) : Nat ×ₗ Nat ×ₗ Nat ×ₗ Nat :=
  toLex (e.offloadRank.toNat, toLex (e.kindRank.toNat,
    toLex (e.localityRank.toNat, e.utilizationPpm.toNat)))

/-- The components a candidate is compared by. -/
def key (e : CandidateEvaluation) : (Nat ×ₗ Nat ×ₗ Nat ×ₗ Nat) ×ₗ DeviceId :=
  toLex (e.ranks, e.device)

theorem ranks_lt_iff {l r : CandidateEvaluation} : l.ranks < r.ranks ↔
    l.offloadRank < r.offloadRank ∨ l.offloadRank = r.offloadRank ∧
      (l.kindRank < r.kindRank ∨ l.kindRank = r.kindRank ∧
        (l.localityRank < r.localityRank ∨ l.localityRank = r.localityRank ∧
          l.utilizationPpm < r.utilizationPpm)) := by
  unfold ranks
  simp only [Prod.Lex.toLex_lt_toLex, UInt32.lt_iff_toNat_lt, UInt64.lt_iff_toNat_lt,
    UInt32.toNat_inj]

theorem ranks_inj {l r : CandidateEvaluation} : l.ranks = r.ranks ↔
    l.offloadRank = r.offloadRank ∧ l.kindRank = r.kindRank ∧
      l.localityRank = r.localityRank ∧ l.utilizationPpm = r.utilizationPpm := by
  unfold ranks
  simp only [toLex_inj, Prod.mk.injEq, UInt32.toNat_inj, UInt64.toNat_inj]

/-- **The comparison of candidates is a linear order of their keys.** -/
theorem candidatePrecedes_iff (l r : CandidateEvaluation) :
    candidatePrecedes l r = true ↔ l.key < r.key := by
  unfold key
  rw [Prod.Lex.toLex_lt_toLex]
  simp only [ranks_lt_iff, ranks_inj]
  unfold candidatePrecedes
  by_cases hoffload : l.offloadRank = r.offloadRank
  · by_cases hkind : l.kindRank = r.kindRank
    · by_cases hlocality : l.localityRank = r.localityRank
      · by_cases hutilization : l.utilizationPpm = r.utilizationPpm
        · simp [hoffload, hkind, hlocality, hutilization]
        · simp [hoffload, hkind, hlocality, hutilization]
      · simp [hoffload, hkind, hlocality]
    · simp [hoffload, hkind]
  · simp [hoffload]

end CandidateEvaluation

/-! ## The scans of a plan -/

/-- The scan for the best candidate keeps the one that no later one precedes. -/
theorem bestCandidate_eq (candidates : List CandidateEvaluation) :
    bestCandidate candidates = firstLeast candidatePrecedes candidates := by
  unfold bestCandidate firstLeast
  congr 1
  funext best candidate
  cases best <;> rfl

/-- The best candidate is the least of all. -/
theorem isLeastOf_bestCandidate {candidates : List CandidateEvaluation}
    {best : CandidateEvaluation} (h : bestCandidate candidates = some best) :
    IsLeastOf CandidateEvaluation.key candidates best := by
  rw [bestCandidate_eq] at h
  exact isLeastOf_of_firstLeast CandidateEvaluation.candidatePrecedes_iff h

theorem bestCandidate_eq_none {candidates : List CandidateEvaluation} :
    bestCandidate candidates = none ↔ candidates = [] := by
  rw [bestCandidate_eq]
  exact firstLeast_eq_none CandidateEvaluation.candidatePrecedes_iff

namespace FabricState

variable {s : FabricState} {b : Bounds} {c : EvaluationContext} {t : TopologySnapshot}
  {request : PlacementRequest} {now : Micros}

/-- The candidates that a plan evaluates, `src/fabric.cpp:2430-2450`. -/
def evaluated (s : FabricState) (b : Bounds) (c : EvaluationContext) (t : TopologySnapshot) :
    List CandidateEvaluation :=
  (t.devices.take (min t.devices.length b.maxCandidatesPerPlan.toNat)).map (s.planCandidate c)

theorem planCandidate_device (s : FabricState) (c : EvaluationContext) (d : DeviceRecord) :
    (s.planCandidate c d).device = d.id := by
  obtain ⟨_, _, _, _, _, _, heq⟩ := s.planCandidate_eq c d
  rw [heq]
  exact EvaluationContext.evaluateDevice_unranked.1

/-- Candidates of distinct devices have distinct keys. -/
theorem key_injective_evaluated (h : (t.devices.map (·.id)).Nodup) :
    ∀ x ∈ s.evaluated b c t, ∀ y ∈ s.evaluated b c t, x.key = y.key → x = y := by
  intro x hx y hy hkey
  obtain ⟨d, hd, rfl⟩ := List.mem_map.mp hx
  obtain ⟨d', hd', rfl⟩ := List.mem_map.mp hy
  have hdevice : (s.planCandidate c d).device = (s.planCandidate c d').device :=
    congrArg (fun k ↦ (ofLex k).2) hkey
  rw [planCandidate_device, planCandidate_device] at hdevice
  rw [List.inj_on_of_nodup_map h (List.mem_of_mem_take hd) (List.mem_of_mem_take hd') hdevice]

private theorem planEvidence_of {p : PolicySnapshot} (h : s.PlanEvidence request now t p) :
    s.planEvidence request now = .ok (t, p) := by
  unfold planEvidence
  refine present_bind_eq_ok.mpr ⟨t, h.topology, present_bind_eq_ok.mpr ⟨p, h.policy, ?_⟩⟩
  refine require_bind_eq_ok.mpr ⟨h.topologyCurrent, ?_⟩
  refine require_bind_eq_ok.mpr ⟨h.topologyFresh, ?_⟩
  refine require_bind_eq_ok.mpr ⟨h.policyCurrent, ?_⟩
  refine require_bind_eq_ok.mpr ⟨h.policyFresh, ?_⟩
  refine require_bind_eq_ok.mpr ⟨h.minTopology, ?_⟩
  exact require_bind_eq_ok.mpr ⟨h.minPolicy, rfl⟩

/-- A request that nothing refuses before is planned over its candidates. -/
theorem planLocked_of_planning (h : s.Planning b request now t c)
    (hfunction : request.function ≠ .empty) :
    s.planLocked b request false now = .ok (s.planCandidates b c t
      { planExplanation b request with scopeId := c.requestScope }) := by
  have hfunction' : s.planFunction request = .ok _ := planFunction_eq_ok.mpr ⟨h.agrees, rfl⟩
  have hbounded := h.bounded
  have hreplacing := h.free
  rw [h.context] at hbounded hreplacing
  unfold planLocked
  refine require_bind_eq_ok.mpr ⟨rfl, bind_eq_ok.mpr ⟨_, h.scope, ?_⟩⟩
  refine require_bind_eq_ok.mpr ⟨hfunction, ?_⟩
  rw [planEvidence_of h.evidence, hfunction']
  refine require_bind_eq_ok.mpr ⟨hbounded, ?_⟩
  rw [h.rule]
  change (if _ then _ else _ : Result PlanResult) = _
  rw [if_neg fun hconflict ↦ hconflict.2 (hreplacing hconflict.1)]
  rw [← h.context]
  rfl

end FabricState

end OffloadFabric
