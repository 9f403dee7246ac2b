import OffloadFabric.Fabric.Cancellation

/-!
# The reassignment budget

`reassignment_count` of `src/fabric.cpp:2149-2165` counts every stamp up to the reading, and
`authorize_locked` (`src/fabric.cpp:3415-3423`) compares the count with the budget of the policy
rule only: nothing reads the window of the rule or the budget of the request.
-/

namespace OffloadFabric

open Lib Lib.Fallible

namespace FabricState

variable {s : FabricState} {k : ExclusivityKey} {rule : PolicyRule} {now : Micros}

/-- A supersession that lies in the window of a rule. -/
def InWindow (rule : PolicyRule) (now stamp : Micros) : Prop :=
  stamp ≤ now ∧ now.toInt - stamp.toInt ≤ rule.reassignmentWindowMicros.toNat

instance (rule : PolicyRule) (now stamp : Micros) : Decidable (InWindow rule now stamp) :=
  inferInstanceAs (Decidable (_ ∧ _))

/-- The supersessions recorded for a key that lie in the window of a rule. -/
def recentReassignments (s : FabricState) (k : ExclusivityKey) (rule : PolicyRule)
    (now : Micros) : Nat :=
  ((s.reassignments[k]?).getD []).countP fun stamp ↦ InWindow rule now stamp

/-- The supersessions recorded for a key that the window of a rule has passed. -/
def expiredReassignments (s : FabricState) (k : ExclusivityKey) (rule : PolicyRule)
    (now : Micros) : Nat :=
  ((s.reassignments[k]?).getD []).countP fun stamp ↦ stamp ≤ now ∧ ¬ InWindow rule now stamp

/-- The source counts the supersessions in the window and those it has passed alike. -/
theorem reassignmentCount_eq (s : FabricState) (k : ExclusivityKey) (rule : PolicyRule)
    (now : Micros) : s.reassignmentCount k now =
      s.recentReassignments k rule now + s.expiredReassignments k rule now := by
  unfold reassignmentCount recentReassignments expiredReassignments
  generalize (s.reassignments[k]?).getD [] = stamps
  induction stamps with
  | nil => rfl
  | cons stamp stamps ih =>
    simp only [List.countP_cons, ih, decide_eq_true_eq]
    by_cases hnow : stamp ≤ now
    · by_cases hwindow : InWindow rule now stamp
      · simp only [hnow, hwindow, if_true, not_true_eq_false, and_false, if_false]
        omega
      · simp only [hnow, hwindow, if_true, not_false_eq_true, and_true, if_false]
        omega
    · have hwindow : ¬ InWindow rule now stamp := fun h ↦ hnow h.1
      simp only [hnow, hwindow, if_false, false_and, Nat.add_zero]

/-- The supersessions in the window have reached the budget of the rule, or the budget that the
request sets itself. -/
def BudgetSpent (s : FabricState) (k : ExclusivityKey) (rule : PolicyRule)
    (request : PlacementRequest) (now : Micros) : Prop :=
  rule.maxReassignmentsPerScope.toNat ≤ s.recentReassignments k rule now ∨
    request.maxReassignments ≠ 0 ∧
      request.maxReassignments.toNat ≤ s.recentReassignments k rule now

instance (request : PlacementRequest) : Decidable (s.BudgetSpent k rule request now) :=
  inferInstanceAs (Decidable (_ ∨ _ ∧ _))

/-- Supersessions that the window has passed fill a budget that those in it leave open. -/
def CountsExpired (s : FabricState) (k : ExclusivityKey) (rule : PolicyRule)
    (request : PlacementRequest) (now : Micros) : Prop :=
  ¬ s.BudgetSpent k rule request now ∧
    rule.maxReassignmentsPerScope.toNat ≤
      s.recentReassignments k rule now + s.expiredReassignments k rule now

/-- The request sets a budget that is reached while that of the rule is not. -/
def OverlooksRequest (s : FabricState) (k : ExclusivityKey) (rule : PolicyRule)
    (request : PlacementRequest) (now : Micros) : Prop :=
  request.maxReassignments ≠ 0 ∧
    request.maxReassignments.toNat ≤ s.recentReassignments k rule now ∧
    s.recentReassignments k rule now + s.expiredReassignments k rule now <
      rule.maxReassignmentsPerScope.toNat

/-- A comparison with the stamps of all times is one with those in the window, except where expired
stamps fill the budget or that of the request is the smaller one. -/
theorem count_iff_spent (s : FabricState) (k : ExclusivityKey) (rule : PolicyRule)
    (request : PlacementRequest) (now : Micros) :
    (rule.maxReassignmentsPerScope.toNat ≤ s.reassignmentCount k now ↔
        s.BudgetSpent k rule request now) ↔
      ¬ s.CountsExpired k rule request now ∧ ¬ s.OverlooksRequest k rule request now := by
  rw [s.reassignmentCount_eq k rule now]
  unfold CountsExpired OverlooksRequest BudgetSpent
  by_cases hown : request.maxReassignments = 0
  · simp only [hown, ne_eq, not_true_eq_false, false_and, or_false, not_false_eq_true, and_true]
    omega
  · simp only [hown, ne_eq, not_false_eq_true, true_and]
    omega

/-- The checks behind a replaced holder refuse with an exhausted budget exactly when its count
has reached that of the rule. -/
theorem authorizeChecks_exhausted_iff {b : Bounds} {p : AssignmentPlan} {scope : ScopeId}
    {policy : PolicySnapshot} {device : DeviceRecord} {holder : AssignmentId}
    (hevidence : s.planEvidenceChecks b p = .ok (scope, policy, device, rule))
    (hexclusive : p.exclusivity = .exclusive)
    (hheld : s.exclusiveConflict scope p.cls p.exclusiveKey .empty = some holder) :
    (∃ e, s.authorizeChecks b p true now = .error e ∧ e.code = .reassignmentBudgetExhausted) ↔
      rule.maxReassignmentsPerScope.toNat ≤ s.reassignmentCount ⟨scope, p.cls⟩ now := by
  have hreplacing : s.replacementChecks p scope rule true now =
      if s.reassignmentCount ⟨scope, p.cls⟩ now < rule.maxReassignmentsPerScope.toNat then
        .ok holder
      else .error ⟨.reassignmentBudgetExhausted,
        "the bounded reassignment budget for this scope is exhausted"⟩ := by
    unfold replacementChecks
    rw [if_pos hexclusive, hheld]
    by_cases hleft :
        s.reassignmentCount ⟨scope, p.cls⟩ now < rule.maxReassignmentsPerScope.toNat
    · simp only [require, hleft, if_true]
      rfl
    · simp only [require, hleft, if_false]
      rfl
  constructor
  · rintro ⟨e, he, hcode⟩
    by_contra hleft
    rw [if_pos (Nat.lt_of_not_le hleft)] at hreplacing
    have hplain : Fails Error.Plain (s.authorizeChecks b p true now) := by
      unfold authorizeChecks
      rw [hevidence]
      change Fails Error.Plain (s.replacementChecks p scope rule true now >>= _)
      rw [hreplacing]
      exact .bind (.ok holder) fun _ _ ↦
        .bind (.require fun _ ↦ EvaluationContext.evaluateDevice_plain _ _) fun _ _ ↦
          .bind fails_placementAuthorityChecks fun _ _ ↦ .ok _
    exact (hplain e he).2 hcode
  · intro hspent
    rw [if_neg (Nat.not_lt_of_le hspent)] at hreplacing
    refine ⟨⟨.reassignmentBudgetExhausted,
      "the bounded reassignment budget for this scope is exhausted"⟩, ?_, rfl⟩
    unfold authorizeChecks
    rw [hevidence]
    change s.replacementChecks p scope rule true now >>= _ = _
    rw [hreplacing]
    rfl

end FabricState

namespace Fabric

/-- The supersession that a placement comes to, `src/fabric.cpp:3402-3415`: its plan, the scope of
the plan and the rule of its class. -/
def supersession (c : FabricConfig) (s : FabricState) (request : PlacementRequest)
    (options : ApplyOptions) (now : ClockReadings) : Option (PlanResult × ScopeId × PolicyRule) :=
  match s.planLocked c.bounds request (options.cancel 1) (now 1) with
  | .error _ => none
  | .ok planned =>
      match s.planEvidenceChecks c.bounds planned.plan with
      | .error _ => none
      | .ok (scope, _, _, rule) =>
          if planned.decision ≠ .refuse ∧ planned.plan.exclusivity = .exclusive ∧
              (effectiveOptions request options planned).allowReplacement = true ∧
              s.exclusiveConflict scope planned.plan.cls planned.plan.exclusiveKey .empty ≠ none then
            some (planned, scope, rule)
          else none

theorem supersession_eq_some {c : FabricConfig} {s : FabricState} {request : PlacementRequest}
    {options : ApplyOptions} {now : ClockReadings} {planned : PlanResult} {scope : ScopeId}
    {rule : PolicyRule} (h : supersession c s request options now = some (planned, scope, rule)) :
    (∃ policy device,
        s.planEvidenceChecks c.bounds planned.plan = .ok (scope, policy, device, rule)) ∧
      planned.plan.exclusivity = .exclusive ∧
      (effectiveOptions request options planned).allowReplacement = true ∧
      ∃ holder, s.exclusiveConflict scope planned.plan.cls planned.plan.exclusiveKey .empty =
        some holder := by
  unfold supersession at h
  split at h
  · cases h
  · next planned' _ =>
    split at h
    · cases h
    · next scope' policy device rule' hevidence =>
      split at h
      · next hcond =>
        cases h
        obtain ⟨-, hexclusive, hallowed, hheld⟩ := hcond
        exact ⟨⟨policy, device, hevidence⟩, hexclusive, hallowed,
          Option.ne_none_iff_exists'.mp hheld⟩
      · cases h

/-- The authorization of a placement that is planned refuses with an exhausted budget. -/
def RefusedByBudget (c : FabricConfig) (m : Impl) (request : PlacementRequest)
    (options : ApplyOptions) (now : ClockReadings) (planned : PlanResult) : Prop :=
  ∃ e, ((authorizeLocked c planned.plan (effectiveOptions request options planned) 2 (now 2)
      (now 3)).exec m).1 = .error e ∧ e.code = .reassignmentBudgetExhausted

instance (c : FabricConfig) (m : Impl) (request : PlacementRequest) (options : ApplyOptions)
    (now : ClockReadings) (planned : PlanResult) :
    Decidable (RefusedByBudget c m request options now planned) :=
  match h : ((authorizeLocked c planned.plan (effectiveOptions request options planned) 2 (now 2)
      (now 3)).exec m).1 with
  | .ok _ => isFalse fun ⟨_, he, _⟩ ↦ by
      rw [h] at he
      cases he
  | .error e =>
      if hcode : e.code = .reassignmentBudgetExhausted then isTrue ⟨e, h, hcode⟩
      else isFalse fun ⟨_, he, hcode'⟩ ↦ by
        rw [h] at he
        cases he
        exact hcode hcode'

/-- An authorization refuses with an exhausted budget exactly when its checks do. -/
theorem authorizeLocked_exhausted_iff {c : FabricConfig} {m : Impl} {p : AssignmentPlan}
    {options : ApplyOptions} {polls : Nat} {now stored : Micros} :
    (∃ e, ((authorizeLocked c p options polls now stored).exec m).1 = .error e ∧
        e.code = .reassignmentBudgetExhausted) ↔
      ∃ e, m.state.authorizeChecks c.bounds p options.allowReplacement now = .error e ∧
        e.code = .reassignmentBudgetExhausted := by
  constructor
  · rintro ⟨e, he, hcode⟩
    rcases authorizeLocked_error (Prod.ext he rfl) with
      ⟨-, hchecks⟩ | ⟨-, ⟨-, rfl, -⟩ | hplain⟩
    · exact ⟨e, hchecks, hcode⟩
    · cases hcode
    · exact absurd hcode hplain.2
  · rintro ⟨e, hchecks, hcode⟩
    refine ⟨e, ?_, hcode⟩
    unfold authorizeLocked
    rw [exec_bind, FabricM.exec_getState]
    simp only
    rw [exec_bind, exec_liftExcept, hchecks]

/-- A supersession is refused by its budget exactly when its count has reached that of its rule. -/
theorem refusedByBudget_iff {c : FabricConfig} {m : Impl} {request : PlacementRequest}
    {options : ApplyOptions} {now : ClockReadings} {planned : PlanResult} {scope : ScopeId}
    {rule : PolicyRule}
    (h : supersession c m.state request options now = some (planned, scope, rule)) :
    RefusedByBudget c m request options now planned ↔ rule.maxReassignmentsPerScope.toNat ≤
      m.state.reassignmentCount ⟨scope, planned.plan.cls⟩ (now 2) := by
  obtain ⟨⟨policy, device, hevidence⟩, hexclusive, hallowed, holder, hheld⟩ :=
    supersession_eq_some h
  unfold RefusedByBudget
  rw [authorizeLocked_exhausted_iff, hallowed]
  exact FabricState.authorizeChecks_exhausted_iff hevidence hexclusive hheld

end Fabric

open Fabric

namespace Sample

/-- A placement on one host that replaces the holder there. -/
def takeover : PlacementRequest :=
  { request with scope := { kind := .host, domain := host }, requestReplacement := true }

/-- A policy that allows one supersession in ten microseconds. -/
def tightPolicy : PolicySnapshot :=
  { policy with rules := policy.rules.map fun rule ↦
      { rule with maxReassignmentsPerScope := 1, reassignmentWindowMicros := 10 } }

/-- A run under the given policy that has placed the function and superseded the placement. -/
def takenOver (p : PolicySnapshot) : List Step :=
  [step (.start boot), step (.ingestTopology topology), step (.ingestPolicy p),
    step (.apply takeover {}), step (.apply takeover {}) 3]

private theorem supersedes :
    (supersession {} (run {} (takenOver tightPolicy)).state takeover {} (fun _ ↦ 4)).isSome =
      true := by
  decide +kernel

/-- The supersessions in the window leave the budget open that those of all times have reached. -/
private def PassesWindow (s : FabricState) : Prop :=
  (supersession {} s takeover {} (fun _ ↦ 900)).any (fun x ↦
    x.2.2.maxReassignmentsPerScope.toNat ≤ s.reassignmentCount ⟨x.2.1, x.1.plan.cls⟩ 900 ∧
      ¬ s.BudgetSpent ⟨x.2.1, x.1.plan.cls⟩ x.2.2 takeover 900) = true

private instance (s : FabricState) : Decidable (PassesWindow s) :=
  inferInstanceAs (Decidable (_ = _))

private theorem passesWindow : PassesWindow (run {} (takenOver tightPolicy)).state := by
  decide +kernel

/-- The supersessions have reached the budget of the request and leave that of the rule open. -/
private def OverlooksBudget (s : FabricState) : Prop :=
  (supersession {} s { takeover with maxReassignments := 1 } {} (fun _ ↦ 4)).any (fun x ↦
    ¬ x.2.2.maxReassignmentsPerScope.toNat ≤ s.reassignmentCount ⟨x.2.1, x.1.plan.cls⟩ 4 ∧
      s.BudgetSpent ⟨x.2.1, x.1.plan.cls⟩ x.2.2
        { takeover with maxReassignments := 1 } 4) = true

private instance (s : FabricState) : Decidable (OverlooksBudget s) :=
  inferInstanceAs (Decidable (_ = _))

private theorem overlooksBudget : OverlooksBudget (run {} (takenOver policy)).state := by
  decide +kernel

end Sample

end OffloadFabric
