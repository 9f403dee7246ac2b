import OffloadFabric.Fabric.Placement

/-!
# What makes a candidate eligible

`evaluate_device` of `src/fabric.cpp:1144-1344` read as a conjunction: each step passes exactly
under its condition, and an eligible candidate carries its mode and the capability generation
it is bound to.
-/

namespace OffloadFabric

open Lib

/-- A current grant admits an intent. -/
def FabricState.Granted (s : FabricState) (i : Intent) (now : Micros) : Prop :=
  ∃ g ∈ s.authority.values,
    s.evidenceCurrent g.provenance.source .authority g.provenance.sequence = true ∧
      authorityAdmits g i now = .ok

namespace EvaluationContext

variable (c : EvaluationContext) (d : DeviceRecord)

/-! ## The conditions -/

/-- A kind the rule allows, or a host stack both sides opted in to. -/
def KindAdmitted : Prop :=
  d.decommissioned = false ∧
    if d.kind = .hostStack then
      c.request.allowHostFallback = true ∧ c.rule.allowHostFallback = true
    else d.kind ∈ c.rule.allowedKinds

/-- The affinities of the request. -/
structure AffinityMet : Prop where
  devices : c.request.preferredDevices = [] ∨ d.id ∈ c.request.preferredDevices
  hosts : c.request.preferredHosts = [] ∨ d.host ∈ c.request.preferredHosts
  anti : d.id ∉ c.request.antiAffinityDevices ∧ d.host ∉ c.request.antiAffinityHosts
  labels : ∀ label ∈ c.request.requiredLabels, label ∈ d.labels

/-- The match of a capability record against what the context requires of the device. -/
def capabilityMatch (r : CapabilityRecord) : CapabilityMatch :=
  matchCapability c.function r d.incarnation c.now

/-- A required capability is matched by current evidence of the generation asked for. -/
structure CapabilityRequired (r : CapabilityRecord) : Prop where
  current : c.state.evidenceCurrent r.provenance.source .capability r.provenance.sequence = true
  floor : ¬ (Gen.isSet c.request.minCapability ∧ r.generation < c.request.minCapability)
  eligible : (c.capabilityMatch d r).eligible = true

/-- The verdicts of a known capability that no rule overlooks. -/
structure CapabilityTolerated (r : CapabilityRecord) : Prop where
  held : (c.capabilityMatch d r).verdict ≠ .revoked ∧
    (c.capabilityMatch d r).verdict ≠ .incarnationMismatch
  supported : d.kind ≠ .hostStack → (c.capabilityMatch d r).verdict ≠ .unsupported ∧
    (c.capabilityMatch d r).verdict ≠ .versionIncompatible
  required : d.kind ≠ .hostStack → c.rule.requireCapability = true → c.CapabilityRequired d r

/-- The capability evidence of the device, if there is any. -/
structure CapabilityMet : Prop where
  known : c.rule.requireCapability = true → d.kind ≠ .hostStack →
    c.state.lookupCapability d.id c.request.cls ≠ none
  tolerated : ∀ r, c.state.lookupCapability d.id c.request.cls = some r →
    c.CapabilityTolerated d r

/-- The capability generation a candidate is bound to, unset for a host stack. -/
def boundCapability : CapabilityGeneration :=
  match c.state.lookupCapability d.id c.request.cls with
  | some r =>
      if d.kind ≠ .hostStack ∧ (c.capabilityMatch d r).eligible then r.generation else 0
  | none => 0

/-- The room the device has left. -/
structure RoomLeft : Prop where
  capacity : capacityAdmits d.capacity (c.state.committedDemandFor d.id) c.request.demand = true
  assignments : c.state.deviceAssignments d.id < c.rule.maxAssignmentsPerDevice.toNat

/-- The device was observed alive, in its incarnation and since the last start. -/
def ObservedAlive : Prop :=
  ∃ o, c.state.observations.find? d.id = some o ∧ o.device.isSet ∧
    o.incarnation = d.incarnation ∧
    c.state.evidenceCurrent o.provenance.source .observation o.provenance.sequence = true ∧
    ¬ o.freshness.isExpired c.now ∧ o.liveness = .alive

/-- A dependency is registered and placed with the candidate. -/
structure DependencyMet (dependency : FunctionId) : Prop where
  ne : dependency ≠ c.request.function
  registered : (c.state.functions.find? dependency).isSome = true
  placed : c.state.assignments.values.any (c.satisfies d dependency) = true

/-- The conditions of an eligible candidate. -/
structure Eligible : Prop where
  kind : c.KindAdmitted d
  affinity : c.AffinityMet d
  capability : c.CapabilityMet d
  room : c.RoomLeft d
  observed : c.rule.requireFreshObservation = true → c.ObservedAlive d
  dependencies : ∀ dependency ∈ c.request.dependencies, c.DependencyMet d dependency
  exclusive : c.request.exclusivity = .exclusive →
    c.state.exclusiveConflict c.requestScope c.request.cls c.rule.exclusiveKey c.replacing = none
  authority : c.rule.requireAuthority = true → c.state.Granted (c.intent d) c.now

/-- The evaluation of an eligible candidate, but for the reasons a host stack notes. -/
def eligibleEvaluation (contributing : List ReasonCode) : CandidateEvaluation :=
  { candidateOf d with
    mode := if d.kind = .hostStack then .hostFallback else .offloaded
    capabilityGeneration := c.boundCapability d
    contributing
    eligible := true
    verdict := .eligible
    reason := .ok }

/-! ## The steps -/

variable {c d} {e e' : CandidateEvaluation}

private theorem kindStep_eq_ok : c.kindStep d e = .ok e' ↔
    c.KindAdmitted d ∧
      e' = if d.kind = .hostStack then { e with mode := .hostFallback } else e := by
  unfold kindStep KindAdmitted
  rw [require_bind_eq_ok, and_assoc]
  refine and_congr_right fun _ ↦ ?_
  split
  · rw [require_bind_eq_ok]
    refine and_congr_right fun _ ↦ ?_
    exact ⟨fun h ↦ (Except.ok.inj h).symm, fun h ↦ congrArg _ h.symm⟩
  · rw [require_bind_eq_ok]
    refine and_congr_right fun _ ↦ ?_
    exact ⟨fun h ↦ (Except.ok.inj h).symm, fun h ↦ congrArg _ h.symm⟩

private theorem affinityStep_eq_ok : c.affinityStep d e = .ok () ↔ c.AffinityMet d := by
  unfold affinityStep
  simp only [require_bind_eq_ok, require_eq_ok]
  constructor
  · rintro ⟨hdevices, hhosts, hanti, hlabels⟩
    exact ⟨hdevices, hhosts, hanti, hlabels⟩
  · rintro ⟨hdevices, hhosts, hanti, hlabels⟩
    exact ⟨hdevices, hhosts, hanti, hlabels⟩

private theorem capacityStep_eq_ok : c.capacityStep d e = .ok () ↔ c.RoomLeft d := by
  unfold capacityStep
  rw [require_bind_eq_ok, require_eq_ok]
  constructor
  · rintro ⟨hcapacity, hassignments⟩
    exact ⟨hcapacity, hassignments⟩
  · rintro ⟨hcapacity, hassignments⟩
    exact ⟨hcapacity, hassignments⟩

private theorem livenessStep_eq_ok : c.livenessStep d e = .ok () ↔
    (c.rule.requireFreshObservation = true → c.ObservedAlive d) := by
  unfold livenessStep ObservedAlive
  cases c.rule.requireFreshObservation with
  | false => simp only [Bool.false_eq_true, if_false, false_imp_iff, pure, Except.pure]
  | true =>
      simp only [if_true, present_bind_eq_ok, require_bind_eq_ok, true_imp_iff]
      refine exists_congr fun o ↦ and_congr_right fun _ ↦ and_congr_right fun _ ↦
        and_congr_right fun _ ↦ and_congr_right fun _ ↦ and_congr_right fun _ ↦ ?_
      cases o.liveness with
      | alive => simp only [pure, Except.pure]
      | _ => simp only [throw, throwThe, MonadExceptOf.throw, reduceCtorEq]

private theorem dependencyStep_eq_ok {dependency : FunctionId} :
    c.dependencyStep d e dependency = .ok () ↔ c.DependencyMet d dependency := by
  unfold dependencyStep
  rw [require_bind_eq_ok, require_bind_eq_ok, require_eq_ok]
  constructor
  · rintro ⟨hne, hregistered, hplaced⟩
    exact ⟨hne, hregistered, hplaced⟩
  · rintro ⟨hne, hregistered, hplaced⟩
    exact ⟨hne, hregistered, hplaced⟩

private theorem exclusivityStep_eq_ok : c.exclusivityStep e = .ok () ↔
    (c.request.exclusivity = .exclusive → c.state.exclusiveConflict c.requestScope c.request.cls
      c.rule.exclusiveKey c.replacing = none) := by
  unfold exclusivityStep
  split
  · next h =>
      rw [require_eq_ok]
      exact ⟨fun hnone _ ↦ hnone, fun hnone ↦ hnone h⟩
  · next h => exact ⟨fun _ hexclusive ↦ absurd hexclusive h, fun _ ↦ rfl⟩

private theorem authorityStep_eq_ok : c.authorityStep d e = .ok () ↔
    (c.rule.requireAuthority = true → c.state.Granted (c.intent d) c.now) := by
  unfold authorityStep FabricState.Granted
  split
  · next h =>
      simp only [require_eq_ok, List.any_eq_true, Bool.and_eq_true, beq_iff_eq, h, true_imp_iff]
  · next h => exact ⟨fun _ hauthority ↦ absurd hauthority h, fun _ ↦ rfl⟩

private theorem boundCapability_of_some {r : CapabilityRecord}
    (h : c.state.lookupCapability d.id c.request.cls = some r) :
    c.boundCapability d =
      if d.kind ≠ .hostStack ∧ (c.capabilityMatch d r).eligible then r.generation else 0 := by
  unfold boundCapability
  rw [h]

private theorem capabilityMet_of_some {r : CapabilityRecord}
    (h : c.state.lookupCapability d.id c.request.cls = some r) :
    c.CapabilityMet d ↔ c.CapabilityTolerated d r := by
  constructor
  · intro hmet
    exact hmet.tolerated r h
  · intro hr
    refine ⟨fun _ _ ↦ by simp [h], fun r' hr' ↦ ?_⟩
    rw [h, Option.some.injEq] at hr'
    exact hr' ▸ hr

/-- The capability step passes under its conditions and binds the generation, noting the reason
of a match that a host stack does without. -/
private theorem capabilityStep_eq_ok (hfresh : e.capabilityGeneration = 0) :
    c.capabilityStep d e = .ok e' → c.CapabilityMet d ∧ ∃ contributing,
      e' = { e with capabilityGeneration := c.boundCapability d, contributing } := by
  have hunbound : { e with capabilityGeneration := 0 } = e := by rw [← hfresh]
  intro h
  unfold capabilityStep at h
  cases hlookup : c.state.lookupCapability d.id c.request.cls with
  | none =>
      simp only [hlookup] at h
      obtain ⟨hneeded, h⟩ := require_bind_eq_ok.mp h
      cases h
      have hbound : c.boundCapability d = 0 := by unfold boundCapability; rw [hlookup]
      refine ⟨⟨fun hreq hkind ↦ absurd ⟨hreq, hkind⟩ hneeded, fun r hr ↦ ?_⟩,
        e.contributing, ?_⟩
      · rw [hlookup] at hr
        cases hr
      · rw [hbound, hunbound]
  | some r =>
      simp only [hlookup] at h
      rw [capabilityMet_of_some hlookup, boundCapability_of_some hlookup]
      obtain ⟨hheld, h⟩ := require_bind_eq_ok.mp h
      by_cases hkind : d.kind = .hostStack
      · have htolerated : c.CapabilityTolerated d r :=
          ⟨hheld, fun hne ↦ absurd hkind hne, fun hne ↦ absurd hkind hne⟩
        simp only [hkind, if_true] at h
        simp only [hkind, ne_eq, not_true_eq_false, false_and, if_false]
        refine ⟨htolerated, e'.contributing, ?_⟩
        split at h
        · cases h
          rw [← hfresh]
        · cases h
          rw [hunbound]
      · simp only [hkind, if_false] at h
        obtain ⟨hsupported, h⟩ := require_bind_eq_ok.mp h
        simp only [ne_eq, hkind, not_false_eq_true, true_and]
        split at h
        · next hreq =>
            obtain ⟨hcurrent, h⟩ := require_bind_eq_ok.mp h
            obtain ⟨hfloor, h⟩ := require_bind_eq_ok.mp h
            obtain ⟨heligible, h⟩ := require_bind_eq_ok.mp h
            cases h
            refine ⟨⟨hheld, fun _ ↦ hsupported, fun _ _ ↦ ⟨hcurrent, hfloor, heligible⟩⟩,
              e.contributing, ?_⟩
            have heligible : (c.capabilityMatch d r).eligible = true := heligible
            rw [if_pos heligible]
        · next hreq =>
            refine ⟨⟨hheld, fun _ ↦ hsupported, fun _ h ↦ absurd h hreq⟩, e.contributing, ?_⟩
            have hsame : ∀ b : Bool, (pure (if b then
                { e with capabilityGeneration := r.generation } else e) :
                  Except CandidateEvaluation _) = .ok e' →
                e' = { e with capabilityGeneration := if b then r.generation else 0 } := by
              intro b hb
              cases b <;> cases hb
              · exact hunbound.symm
              · rfl
            exact hsame _ h

private theorem capabilityStep_of_met (h : c.CapabilityMet d) :
    ∃ e', c.capabilityStep d e = .ok e' := by
  unfold capabilityStep
  cases hlookup : c.state.lookupCapability d.id c.request.cls with
  | none =>
      refine ⟨e, require_bind_eq_ok.mpr ⟨fun hneeded ↦ ?_, rfl⟩⟩
      exact h.known hneeded.1 hneeded.2 hlookup
  | some r =>
      have hr := h.tolerated r hlookup
      by_cases hkind : d.kind = .hostStack
      · simp only [hkind, if_true]
        exact ⟨_, require_bind_eq_ok.mpr ⟨hr.held, rfl⟩⟩
      · simp only [hkind, if_false]
        by_cases hreq : c.rule.requireCapability = true
        · simp only [hreq, if_true]
          have hmatched := hr.required hkind hreq
          exact ⟨_, require_bind_eq_ok.mpr ⟨hr.held, require_bind_eq_ok.mpr ⟨hr.supported hkind,
            require_bind_eq_ok.mpr ⟨hmatched.current, require_bind_eq_ok.mpr ⟨hmatched.floor,
              require_bind_eq_ok.mpr ⟨hmatched.eligible, rfl⟩⟩⟩⟩⟩⟩
        · rw [Bool.not_eq_true] at hreq
          simp only [hreq, Bool.false_eq_true, if_false]
          exact ⟨_, require_bind_eq_ok.mpr ⟨hr.held,
            require_bind_eq_ok.mpr ⟨hr.supported hkind, rfl⟩⟩⟩

/-! ## The evaluation -/

/-- The steps of an evaluation pass exactly for an eligible candidate. -/
theorem evaluationSteps_ok (h : c.evaluationSteps d = .ok e) :
    c.Eligible d ∧ ∃ contributing, e = c.eligibleEvaluation d contributing := by
  unfold evaluationSteps at h
  obtain ⟨e₁, hkind, h⟩ := bind_eq_ok.mp h
  obtain ⟨_, haffinity, h⟩ := bind_eq_ok.mp h
  obtain ⟨e₂, hcapability, h⟩ := bind_eq_ok.mp h
  obtain ⟨_, hcapacity, h⟩ := bind_eq_ok.mp h
  obtain ⟨_, hliveness, h⟩ := bind_eq_ok.mp h
  obtain ⟨_, hdependencies, h⟩ := bind_eq_ok.mp h
  obtain ⟨_, hexclusive, h⟩ := bind_eq_ok.mp h
  obtain ⟨_, hauthority, h⟩ := bind_eq_ok.mp h
  cases h
  obtain ⟨hadmitted, rfl⟩ := kindStep_eq_ok.mp hkind
  have hunbound : (if d.kind = .hostStack then { candidateOf d with mode := .hostFallback }
      else candidateOf d).capabilityGeneration = 0 := by split <;> rfl
  obtain ⟨hmet, contributing, rfl⟩ := capabilityStep_eq_ok hunbound hcapability
  refine ⟨⟨hadmitted, affinityStep_eq_ok.mp haffinity, hmet, capacityStep_eq_ok.mp hcapacity,
    livenessStep_eq_ok.mp hliveness, ?_, exclusivityStep_eq_ok.mp hexclusive,
    authorityStep_eq_ok.mp hauthority⟩, contributing, ?_⟩
  · intro dependency hmem
    exact dependencyStep_eq_ok.mp (forM_eq_ok.mp hdependencies dependency hmem)
  · unfold eligibleEvaluation
    split <;> rfl

private theorem evaluationSteps_of_eligible (h : c.Eligible d) :
    ∃ e, c.evaluationSteps d = .ok e := by
  obtain ⟨e₂, hcapability⟩ := capabilityStep_of_met (e := if d.kind = .hostStack then
    { candidateOf d with mode := .hostFallback } else candidateOf d) h.capability
  refine ⟨_, bind_eq_ok.mpr ⟨_, kindStep_eq_ok.mpr ⟨h.kind, rfl⟩, bind_eq_ok.mpr ⟨_,
    affinityStep_eq_ok.mpr h.affinity, bind_eq_ok.mpr ⟨_, hcapability, bind_eq_ok.mpr ⟨_,
      capacityStep_eq_ok.mpr h.room, bind_eq_ok.mpr ⟨_, livenessStep_eq_ok.mpr h.observed,
        bind_eq_ok.mpr ⟨(), forM_eq_ok.mpr fun dependency hmem ↦
          dependencyStep_eq_ok.mpr (h.dependencies dependency hmem), bind_eq_ok.mpr ⟨_,
            exclusivityStep_eq_ok.mpr h.exclusive, bind_eq_ok.mpr ⟨_,
              authorityStep_eq_ok.mpr h.authority, rfl⟩⟩⟩⟩⟩⟩⟩⟩⟩

/-- A candidate of the device that is not eligible and not ranked yet. -/
private abbrev Refused (d : DeviceRecord) (e : CandidateEvaluation) : Prop :=
  e.eligible = false ∧ e.device = d.id ∧ e.localityRank = 0

/-- A program refuses no candidate as eligible, and none but the candidate of the device. -/
private abbrev Rejects (d : DeviceRecord) {α : Type} (x : Except CandidateEvaluation α) : Prop :=
  Fails (Refused d) x

private theorem rejects_capabilityStep (h : Refused d e) :
    Rejects d (c.capabilityStep d e) := by
  unfold capabilityStep
  split
  · exact .bind (.require fun _ ↦ h) fun _ _ ↦ .ok _
  · refine .bind (.require fun _ ↦ h) fun _ _ ↦ ?_
    split
    · exact .ok _
    · refine .bind (.require fun _ ↦ h) fun _ _ ↦ ?_
      split
      · exact .bind (.require fun _ ↦ h) fun _ _ ↦ .bind (.require fun _ ↦ h) fun _ _ ↦
          .bind (.require fun _ ↦ h) fun _ _ ↦ .ok _
      · exact .ok _

private theorem rejects_livenessStep (h : Refused d e) : Rejects d (c.livenessStep d e) := by
  unfold livenessStep
  split
  · refine .bind (.present h) fun o _ ↦ .bind (.require fun _ ↦ h) fun _ _ ↦
      .bind (.require fun _ ↦ h) fun _ _ ↦ .bind (.require fun _ ↦ h) fun _ _ ↦
        .bind (.require fun _ ↦ h) fun _ _ ↦ ?_
    cases o.liveness with
    | alive => exact .ok _
    | _ => exact .error h
  · exact .ok _

private theorem rejects_dependencyStep (h : Refused d e) (dependency : FunctionId) :
    Rejects d (c.dependencyStep d e dependency) :=
  .bind (.require fun _ ↦ h) fun _ _ ↦ .bind (.require fun _ ↦ h) fun _ _ ↦ .require fun _ ↦ h

private theorem rejects_evaluationSteps : Rejects d (c.evaluationSteps d) := by
  have hfirst : Refused d (candidateOf d) := ⟨rfl, rfl, rfl⟩
  have hkind : Rejects d (c.kindStep d (candidateOf d)) := by
    unfold kindStep
    refine .bind (.require fun _ ↦ hfirst) fun _ _ ↦ ?_
    split
    · exact .bind (.require fun _ ↦ hfirst) fun _ _ ↦ .ok _
    · exact .bind (.require fun _ ↦ hfirst) fun _ _ ↦ .ok _
  unfold evaluationSteps
  refine .bind hkind fun e₁ he₁ ↦ ?_
  have h₁ : Refused d e₁ := by
    rw [(kindStep_eq_ok.mp he₁).2]
    split <;> exact hfirst
  refine .bind (.bind (.require fun _ ↦ h₁) fun _ _ ↦ .bind (.require fun _ ↦ h₁) fun _ _ ↦
    .bind (.require fun _ ↦ h₁) fun _ _ ↦ .require fun _ ↦ h₁) fun _ _ ↦
    .bind (rejects_capabilityStep h₁) fun e₂ he₂ ↦ ?_
  have h₂ : Refused d e₂ := by
    have hunbound : e₁.capabilityGeneration = 0 := by
      rw [(kindStep_eq_ok.mp he₁).2]
      split <;> rfl
    obtain ⟨-, contributing, rfl⟩ := capabilityStep_eq_ok hunbound he₂
    exact h₁
  refine .bind (.bind (.require fun _ ↦ h₂) fun _ _ ↦ .require fun _ ↦ h₂) fun _ _ ↦
    .bind (rejects_livenessStep h₂) fun _ _ ↦ .bind (.forM (rejects_dependencyStep h₂) _)
      fun _ _ ↦ .bind ?_ fun _ _ ↦ .bind ?_ fun _ _ ↦ .ok _
  · unfold exclusivityStep
    split
    · exact .require fun _ ↦ h₂
    · exact .ok _
  · unfold authorityStep
    split
    · exact .require fun _ ↦ h₂
    · exact .ok _

/-- A candidate is eligible under the conditions of every step, and its evaluation is then
known but for what a host stack notes. -/
theorem evaluateDevice_of_eligible (h : c.Eligible d) :
    ∃ contributing, c.evaluateDevice d = c.eligibleEvaluation d contributing := by
  obtain ⟨e, he⟩ := evaluationSteps_of_eligible h
  obtain ⟨-, contributing, heq⟩ := evaluationSteps_ok he
  refine ⟨contributing, ?_⟩
  unfold evaluateDevice
  rw [he, heq]

/-- An eligible candidate meets the conditions of every step. -/
theorem eligible_of_evaluateDevice (h : (c.evaluateDevice d).eligible = true) :
    c.Eligible d := by
  unfold evaluateDevice at h
  cases hsteps : c.evaluationSteps d with
  | ok e => exact (evaluationSteps_ok hsteps).1
  | error e =>
      rw [hsteps] at h
      have hrefused : e.eligible = false := (rejects_evaluationSteps e hsteps).1
      exact absurd (h.symm.trans hrefused) (by decide)

/-- An evaluation is of the device, and not ranked yet. -/
theorem evaluateDevice_unranked :
    (c.evaluateDevice d).device = d.id ∧ (c.evaluateDevice d).localityRank = 0 := by
  unfold evaluateDevice
  cases hsteps : c.evaluationSteps d with
  | ok e =>
      obtain ⟨-, contributing, rfl⟩ := evaluationSteps_ok hsteps
      exact ⟨rfl, rfl⟩
  | error e => exact (rejects_evaluationSteps e hsteps).2

/-- Where the rule requires a capability, an eligible device has a current record that matches. -/
theorem Eligible.exists_capability (h : c.Eligible d) (hkind : d.kind ≠ .hostStack)
    (hrequired : c.rule.requireCapability = true) :
    ∃ r, c.state.lookupCapability d.id c.request.cls = some r ∧ c.CapabilityRequired d r ∧
      r.Matches c.function d.incarnation c.now := by
  cases hlookup : c.state.lookupCapability d.id c.request.cls with
  | none => exact absurd hlookup (h.capability.known hrequired hkind)
  | some r =>
      have hr := (h.capability.tolerated r hlookup).required hkind hrequired
      exact ⟨r, rfl, hr, matchCapability_eligible.mp hr.eligible⟩

/-- A candidate is bound to the record it matched, and only an offloaded one is. -/
theorem matches_of_boundCapability (h : Gen.isSet (c.boundCapability d)) {r : CapabilityRecord}
    (hr : c.state.lookupCapability d.id c.request.cls = some r) :
    d.kind ≠ .hostStack ∧ r.Matches c.function d.incarnation c.now := by
  rw [boundCapability_of_some hr] at h
  by_cases hmatch : d.kind ≠ .hostStack ∧ (c.capabilityMatch d r).eligible
  · exact ⟨hmatch.1, matchCapability_eligible.mp hmatch.2⟩
  · rw [if_neg hmatch] at h
    exact absurd rfl h

end EvaluationContext

end OffloadFabric
