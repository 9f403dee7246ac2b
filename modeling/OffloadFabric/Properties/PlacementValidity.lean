import OffloadFabric.Fabric.Answers
import OffloadFabric.Fabric.Counters
import OffloadFabric.Fabric.Verdicts

/-!
# Placement agrees with revalidation

When an assignment that was just placed or re-authorized is valid (`src/fabric.cpp:2016-2147`):
what a revalidation checks and the candidate evaluation with its authorization
(`src/fabric.cpp:1144-1344,3368-3479,3906-3970`) does not.
-/

namespace OffloadFabric

open Lib FabricState

namespace FabricState

variable (s : FabricState) (p : AssignmentPlan) (now : Micros)

/-- The semantics a recheck asks a grant for, of a function under the current policy. -/
def placedSemantics (function : FunctionId) (cls : FunctionClass) : SemanticsMask :=
  match s.functions.find? function, s.ruleFor cls with
  | some f, some rule => f.required.unite rule.required
  | _, _ => {}

/-- A capability record is current and unexpired. -/
def CapabilityCurrent (cap : CapabilityRecord) : Prop :=
  s.evidenceCurrent cap.provenance.source .capability cap.provenance.sequence = true ∧
    ¬ cap.freshness.isExpired now

/-- What a revalidation asks of a placement by an accepted plan of its request, beyond what the
placement checked. -/
structure PlacementHolds : Prop where
  topology : ∀ t, s.topology = some t → ¬ t.freshness.isExpired now
  policy : ∀ policy, s.policy = some policy → ¬ policy.freshness.isExpired now
  kind : p.kind = .hostStack → ∀ rule, s.ruleFor p.cls = some rule → .hostStack ∈ rule.allowedKinds
  capability : Gen.isSet p.binding.capability →
    ∀ rule, s.ruleFor p.cls = some rule → rule.requireCapability = false →
      ∀ cap, s.lookupCapability p.device p.cls = some cap → s.CapabilityCurrent now cap

/-- What a revalidation asks of a placement by a plan, beyond what the authorization of the plan
checked. -/
structure PlanHolds : Prop where
  topology : ∀ t, s.topology = some t → ¬ t.freshness.isExpired now ∧
    s.evidenceCurrent t.provenance.source .topology t.provenance.sequence = true
  policy : ∀ policy, s.policy = some policy → ¬ policy.freshness.isExpired now ∧
    s.evidenceCurrent policy.provenance.source .policy policy.provenance.sequence = true
  kind : ∀ rule, s.ruleFor p.cls = some rule →
    p.kind ∈ rule.allowedKinds ∧ (p.kind = .hostStack → rule.allowHostFallback = true)
  capability : Gen.isSet p.binding.capability →
    ∀ cap, s.lookupCapability p.device p.cls = some cap → s.CapabilityCurrent now cap ∧
      ∀ f, s.functions.find? p.function = some f → cap.Matches f p.incarnation now
  grant : p.authority.isSet → ∃ g, s.authority.find? p.authority = some g ∧
    s.evidenceCurrent g.provenance.source .authority g.provenance.sequence = true ∧
    authorityRecheck g ⟨.place, p.cls, p.kind, p.host, p.scopeId,
      s.placedSemantics p.function p.cls, s.policyGeneration⟩ now = .ok

/-- What a revalidation asks of an assignment re-authorized by a grant, beyond what the
re-authorization checked. -/
structure ReauthorizationHolds (r : AssignmentRecord) (g : AuthorityGrant) : Prop where
  capability : ¬ Gen.isSet r.binding.capability →
    ∀ cap, s.lookupCapability r.device r.cls = some cap → Gen.isSet cap.generation →
      s.CapabilityCurrent now cap ∧
        ∀ f, s.functions.find? r.function = some f → cap.Matches f r.incarnation now
  current : s.evidenceCurrent g.provenance.source .authority g.provenance.sequence = true
  places : .place ∈ g.actions
  ceiling : g.semanticsCeiling.isEmpty = false →
    (s.placedSemantics r.function r.cls).isSubsetOf g.semanticsCeiling = true

variable {s p now}

/-! ## Placements -/

/-- A plan that is authorized creates a valid assignment exactly as far as it holds. -/
theorem newAssignment_valid_iff {c : FabricConfig} {t : TopologySnapshot}
    {policy : PolicySnapshot} {d : DeviceRecord} {rule : PolicyRule} {auth : Authorization}
    {allowReplacement : Bool} {id : RequestId} {i : Identity} {issued : FabricState}
    (ha : s.Authorizes c.bounds p allowReplacement now t policy d rule auth.replacing)
    (hscope : auth.scope = p.scopeId) (hi : s.Issues i issued) :
    s.Valid (newAssignment c s p auth id i.id i.lease i.attempt i.fence now) now ↔
      s.PlanHolds p now := by
  generalize hr : newAssignment c s p auth id i.id i.lease i.attempt i.fence now = r
  have hdevice : r.device = p.device := by rw [← hr]; rfl
  have hincarnation : r.incarnation = p.incarnation := by rw [← hr]; rfl
  have hfunction : r.function = p.function := by rw [← hr]; rfl
  have hcls : r.cls = p.cls := by rw [← hr]; rfl
  have hkind : r.kind = p.kind := by rw [← hr]; rfl
  have hhost : r.host = p.host := by rw [← hr]; rfl
  have hscopeId : r.scopeId = p.scopeId := by rw [← hr]; exact hscope
  have hauthority : r.authority = p.authority := by rw [← hr]; rfl
  have htopology : r.binding.topology = p.binding.topology := by rw [← hr]; rfl
  have hpolicy : r.binding.policy = p.binding.policy := by rw [← hr]; rfl
  have hcapability : r.binding.capability = p.binding.capability := by rw [← hr]; rfl
  have hfence : r.fence = i.fence := by rw [← hr]; rfl
  have hgrant : (r.authority.isSet → ∃ g, s.ValidGrant r now g) ↔
      (p.authority.isSet → ∃ g, s.authority.find? p.authority = some g ∧
        s.evidenceCurrent g.provenance.source .authority g.provenance.sequence = true ∧
        authorityRecheck g ⟨.place, p.cls, p.kind, p.host, p.scopeId,
          s.placedSemantics p.function p.cls, s.policyGeneration⟩ now = .ok) := by
    have hsemantics : s.recheckSemantics r = s.placedSemantics p.function p.cls := by
      rw [← hfunction, ← hcls]
      rfl
    rw [hauthority]
    refine imp_congr_right fun _ ↦ exists_congr fun g ↦ ?_
    rw [← hsemantics, ← hcls, ← hkind, ← hhost, ← hscopeId, ← hauthority]
    constructor
    · intro hg
      exact ⟨hg.found, hg.current, hg.places⟩
    · rintro ⟨hfound, hcurrent, hplaces⟩
      exact ⟨hfound, hcurrent, hplaces⟩
  have hrule : ∀ rule', s.ruleFor p.cls = some rule' ↔ rule' = rule := by
    intro rule'
    rw [ruleFor_eq_some ha.foundPolicy ha.foundRule, Option.some.injEq, eq_comm]
  obtain ⟨-, hid⟩ := lowerBound_eq_some ha.foundDevice
  constructor
  · intro hv
    obtain ⟨t', d', htarget⟩ := hv.target.target
    obtain ⟨policy', rule', hvalid, -⟩ := hv.target.policy
    refine ⟨fun t₂ h₂ ↦ ?_, fun p₂ h₂ ↦ ?_, fun rule₂ h₂ ↦ ?_, fun hset cap hcap ↦ ?_,
      hgrant.mp hv.grant⟩
    · have heq : t₂ = t' := Option.some.inj (h₂.symm.trans htarget.topology)
      exact heq ▸ ⟨htarget.fresh, htarget.current⟩
    · have heq : p₂ = policy' := Option.some.inj (h₂.symm.trans hvalid.policy)
      exact heq ▸ ⟨hvalid.fresh, hvalid.current⟩
    · have hfound := ruleFor_eq_some hvalid.policy hvalid.found
      rw [hcls, h₂, Option.some.injEq] at hfound
      rw [hfound, ← hkind]
      exact ⟨hvalid.kind, hvalid.fallback⟩
    · rw [← hcapability] at hset
      obtain ⟨cap', hc⟩ := hv.target.capability hset
      have hfound := hc.found
      rw [hdevice, hcls] at hfound
      have heq : cap = cap' := Option.some.inj (hcap.symm.trans hfound)
      rw [heq, ← hfunction, ← hincarnation]
      exact ⟨⟨hc.current, hc.fresh⟩, hc.fits⟩
  · intro hp
    obtain ⟨htfresh, htcurrent⟩ := hp.topology t ha.foundTopology
    obtain ⟨hpfresh, hpcurrent⟩ := hp.policy policy ha.foundPolicy
    obtain ⟨hallowed, hfallback⟩ := hp.kind rule ((hrule rule).mpr rfl)
    rw [← hkind] at hallowed hfallback
    refine ⟨⟨⟨t, d, ha.foundTopology, htcurrent, htfresh, ?_, ?_, ha.live, ?_⟩,
      ⟨policy, rule, ⟨ha.foundPolicy, hpcurrent, hpfresh, ?_, hallowed, hfallback⟩, ?_⟩, ?_⟩,
      ?_, ?_, hgrant.mpr hp.grant⟩
    · rw [htopology, ha.topologyGeneration]
      exact fun hless ↦ lt_irrefl _ hless.2
    · rw [hdevice]
      exact ha.foundDevice
    · rw [hincarnation]
      exact ha.incarnation
    · rw [hcls]
      exact ha.foundRule
    · intro hfresh
      obtain ⟨o, ho, hset, hinc, hcurrent, hunexpired, halive⟩ := ha.eligible.observed hfresh
      refine ⟨o, ?_, hset, ?_, hcurrent, hunexpired, halive⟩
      · rw [hdevice, ← hid]
        exact ho
      · rw [hincarnation, ← ha.incarnation]
        exact hinc
    · intro hset
      rw [hcapability] at hset
      obtain ⟨cap, hcap, hgeneration⟩ := ha.capability hset
      obtain ⟨⟨hcurrent, hfresh⟩, hfits⟩ := hp.capability hset cap hcap
      refine ⟨cap, ?_, fun _ ↦ ?_, hcurrent, hfresh, ?_⟩
      · rw [hdevice, hcls]
        exact hcap
      · rw [hcapability]
        exact hgeneration
      · rw [hfunction, hincarnation]
        exact hfits
    · intro _
      unfold policyGeneration
      rw [ha.foundPolicy, hpolicy]
      exact ha.policyGeneration
    · intro _
      rw [hfence]
      exact hi.fence_epoch

/-- What a plan requires covers what is registered for its function. -/
private theorem requirement_covers {request : PlacementRequest} {f : FunctionDescriptor}
    (h : s.functions.find? request.function = some f) (m : SemanticsMask) :
    (s.requirement request).unite m = f.required.unite (request.required.unite m) := by
  unfold requirement
  rw [h]
  exact SemanticsMask.unite_assoc _ _ _

section

variable {b : Bounds} {request : PlacementRequest} {now₁ : Micros} {t₁ t : TopologySnapshot}
  {e : EvaluationContext} {d₁ d : DeviceRecord} {allowReplacement : Bool}
  {policy : PolicySnapshot} {rule : PolicyRule} {replacing : AssignmentId}

private theorem Planning.kind_holds (hplanning : s.Planning b request now₁ t₁ e)
    (heligible : e.Eligible d₁) (hp : p = e.signedDraft t₁ d₁ b)
    (ha : s.Authorizes b p allowReplacement now t policy d rule replacing)
    (h : p.kind = .hostStack → .hostStack ∈ rule.allowedKinds) :
    p.kind ∈ rule.allowedKinds ∧ (p.kind = .hostStack → rule.allowHostFallback = true) := by
  have hkind : p.kind = d₁.kind := by rw [hp]; rfl
  have hadmitted := heligible.kind.2
  rw [hplanning.rule_eq hp ha, ← hkind] at hadmitted
  by_cases hhost : p.kind = .hostStack
  · rw [if_pos hhost] at hadmitted
    exact ⟨hhost ▸ h hhost, fun _ ↦ hadmitted.2⟩
  · rw [if_neg hhost] at hadmitted
    exact ⟨hadmitted, fun hno ↦ absurd hno hhost⟩

/-- The capability record a placement is bound to matches what is registered. -/
private theorem Planning.capability_holds (hplanning : s.Planning b request now₁ t₁ e)
    (hp : p = e.signedDraft t₁ d₁ b)
    (ha : s.Authorizes b p allowReplacement now t policy d rule replacing)
    (hset : Gen.isSet p.binding.capability) {cap : CapabilityRecord}
    (hcap : s.lookupCapability p.device p.cls = some cap)
    (h : rule.requireCapability = false → s.CapabilityCurrent now cap) :
    s.CapabilityCurrent now cap ∧
      ∀ f, s.functions.find? p.function = some f → cap.Matches f p.incarnation now := by
  have hcontext := hplanning.context
  have hfunction : p.function = request.function := by rw [hp, hcontext]; rfl
  have hcap₁ : e.state.lookupCapability d₁.id e.request.cls = some cap := by
    rw [← hcap, hp, hcontext]
    rfl
  have hbound : p.binding.capability = e.boundCapability d₁ := by rw [hp]; rfl
  obtain ⟨hoffloaded, hmatch⟩ := EvaluationContext.matches_of_boundCapability (hbound ▸ hset) hcap₁
  by_cases hrequired : rule.requireCapability = true
  · -- the authorization matched the record again, for what the plan requires
    have hmode : p.mode = .offloaded := by
      rw [hp]
      exact if_neg hoffloaded
    have hoffload : d.kind ≠ .hostStack := by
      intro hhost
      have hfallback := ha.eligible.kind.2
      rw [if_pos hhost] at hfallback
      have hmode' : (p.mode == .hostFallback) = true := hfallback.1
      rw [hmode] at hmode'
      cases hmode'
    obtain ⟨-, hid⟩ := lowerBound_eq_some ha.foundDevice
    obtain ⟨cap', hcap', hcurrent, hmatch'⟩ := ha.eligible.exists_capability hoffload hrequired
    have hcap' : s.lookupCapability d.id p.cls = some cap' := hcap'
    rw [hid, hcap, Option.some.injEq] at hcap'
    subst hcap'
    refine ⟨⟨hcurrent.current, hmatch'.fresh⟩, fun f hf ↦ ?_⟩
    have hrequirement : (s.authorizedFunction p).required =
        f.required.unite (request.required.unite rule.required) := by
      rw [hfunction] at hf
      exact (hplanning.effectiveRequirement hp ha).trans (requirement_covers hf _)
    have hversion : (s.authorizedFunction p).requiredVersion = f.requiredVersion := by
      unfold authorizedFunction
      simp only [hf]
    exact ha.incarnation ▸ hmatch'.weaken hrequirement hversion hmatch'.fresh
  · have hcurrent := h (Bool.not_eq_true _ ▸ hrequired)
    refine ⟨hcurrent, fun f hf ↦ ?_⟩
    rw [hfunction] at hf
    have hincarnation : p.incarnation = d₁.incarnation := by rw [hp]; rfl
    have hrequirement : e.function.required = f.required.unite request.required := by
      rw [hcontext]
      simp only [requirement, hf]
    have hversion : e.function.requiredVersion = f.requiredVersion := by
      rw [hcontext]
      simp only [requiredVersion, hf]
    exact hincarnation ▸ hmatch.weaken hrequirement hversion hcurrent.2

/-- The grant a placement names is current and still places it. -/
private theorem Planning.grant_holds (hplanning : s.Planning b request now₁ t₁ e)
    (hp : p = e.signedDraft t₁ d₁ b)
    (ha : s.Authorizes b p allowReplacement now t policy d rule replacing)
    (hset : p.authority.isSet) : ∃ g, s.authority.find? p.authority = some g ∧
      s.evidenceCurrent g.provenance.source .authority g.provenance.sequence = true ∧
      authorityRecheck g ⟨.place, p.cls, p.kind, p.host, p.scopeId,
        s.placedSemantics p.function p.cls, s.policyGeneration⟩ now = .ok := by
  have hrule := hplanning.rule_eq hp ha
  by_cases hrequired : rule.requireAuthority = true
  · obtain ⟨g, hg, hcurrent, hadmits⟩ := hplanning.grant hp ha hrequired hset
    refine ⟨g, hg, hcurrent, (authorityRecheck_eq_ok hadmits).mpr
      ⟨hadmits.action, fun hceiling ↦ ?_⟩⟩
    have hcovers : (p.effectiveRequirement.unite rule.required).isSubsetOf g.semanticsCeiling =
      true := hadmits.ceiling hceiling
    unfold placedSemantics
    split
    · next f rule' hf hrule' =>
        have hfunction : p.function = request.function := by rw [hp, hplanning.context]; rfl
        rw [hfunction] at hf
        rw [hplanning.effectiveRequirement hp ha, requirement_covers hf] at hcovers
        obtain ⟨heffective, hpolicy⟩ := SemanticsMask.unite_isSubsetOf.mp hcovers
        rw [(ha.ruleFor rule').mp hrule']
        exact SemanticsMask.unite_isSubsetOf.mpr
          ⟨(SemanticsMask.unite_isSubsetOf.mp heffective).1, hpolicy⟩
    · exact SemanticsMask.empty_isSubsetOf _
  · have hnone : p.authority = .empty := by
      rw [hp]
      exact if_neg (hrule ▸ hrequired)
    exact absurd (by rw [hnone]; rfl) hset

/-- An accepted plan of a request that is authorized at once holds as far as a placement does. -/
theorem planHolds_iff {cancelled : Bool} {planned : PlanResult}
    (hplan : s.planLocked b request cancelled now₁ = .ok planned)
    (hd : planned.decision ≠ .refuse)
    (ha : s.Authorizes b planned.plan allowReplacement now t policy d rule replacing) :
    s.PlanHolds planned.plan now ↔ s.PlacementHolds planned.plan now := by
  obtain ⟨t₁, e, d₁, hplanning, -, heligible, hp, -, -⟩ := planLocked_ok hplan hd
  constructor
  · intro h
    exact ⟨fun t' ht' ↦ (h.topology t' ht').1, fun p' hp' ↦ (h.policy p' hp').1,
      fun hhost rule' hrule' ↦ hhost ▸ (h.kind rule' hrule').1,
      fun hset _ _ _ cap hcap ↦ (h.capability hset cap hcap).1⟩
  · intro h
    have hrule := (ha.ruleFor rule).mpr rfl
    refine ⟨fun t' ht' ↦ ⟨h.topology t' ht', ?_⟩, fun p' hp' ↦ ⟨h.policy p' hp', ?_⟩,
      fun rule' hrule' ↦ ?_, fun hset cap hcap ↦ ?_, fun hset ↦ hplanning.grant_holds hp ha hset⟩
    · have heq : t' = t₁ := Option.some.inj (ht'.symm.trans hplanning.evidence.topology)
      exact heq ▸ hplanning.evidence.topologyCurrent
    · have heq : p' = e.policy := Option.some.inj (hp'.symm.trans hplanning.evidence.policy)
      exact heq ▸ hplanning.evidence.policyCurrent
    · rw [(ha.ruleFor rule').mp hrule']
      exact hplanning.kind_holds heligible hp ha fun hhost ↦ h.kind hhost rule hrule
    · exact hplanning.capability_holds hp ha hset hcap fun hrequired ↦
        h.capability hset rule hrule hrequired cap hcap

end

/-! ## Re-authorizations -/

/-- A re-authorized assignment is valid exactly as far as its grant and its capability hold. -/
theorem reauthorized_valid_iff {b : Bounds} {request : ReauthorizeRequest} {r : AssignmentRecord}
    {g : AuthorityGrant} {lease : LeaseId} {attempt : AttemptId} {fence : FencingToken}
    {issued : FabricState} (h : s.Reauthorizes request r now .ok g)
    (hi : s.Renews lease attempt fence issued) :
    s.Valid (s.reauthorized b r request.authority .ok lease attempt fence now) now ↔
      s.ReauthorizationHolds now r g := by
  have htarget := assignmentTargetValidity_eq_ok.mp h.target
  have hadmits := authorityAdmits_eq_ok.mp h.admits
  obtain ⟨t, d, ht⟩ := htarget.target
  obtain ⟨policy, rule, hpolicy, hliveness⟩ := htarget.policy
  generalize hr : s.reauthorized b r request.authority .ok lease attempt fence now = r'
  have hdevice : r'.device = r.device := by rw [← hr]; rfl
  have hincarnation : r'.incarnation = r.incarnation := by rw [← hr]; rfl
  have hfunction : r'.function = r.function := by rw [← hr]; rfl
  have hcls : r'.cls = r.cls := by rw [← hr]; rfl
  have hkind : r'.kind = r.kind := by rw [← hr]; rfl
  have hhost : r'.host = r.host := by rw [← hr]; rfl
  have hscope : r'.scopeId = r.scopeId := by rw [← hr]; rfl
  have hauthority : r'.authority = request.authority := by rw [← hr]; rfl
  have hfence : r'.fence = fence := by rw [← hr]; rfl
  have hbinding : r'.binding = s.rebind r := by rw [← hr]; rfl
  have htopology : r'.binding.topology = t.generation := by
    rw [hbinding]
    unfold rebind
    rw [ht.topology]
    rfl
  have hcapability : ∀ cap, s.lookupCapability r.device r.cls = some cap →
      r'.binding.capability = cap.generation := by
    intro cap hcap
    rw [hbinding]
    unfold rebind
    rw [hcap]
    rfl
  -- the record bound is the one of the device, checked before where it was bound before
  have hlooked : s.ReauthorizationHolds now r g → Gen.isSet r'.binding.capability →
      ∃ cap, s.lookupCapability r.device r.cls = some cap ∧ s.CapabilityCurrent now cap ∧
        ∀ f, s.functions.find? r.function = some f → cap.Matches f r.incarnation now := by
    intro hp hbound
    by_cases hset : Gen.isSet r.binding.capability
    · obtain ⟨cap, hc⟩ := htarget.capability hset
      exact ⟨cap, hc.found, ⟨hc.current, hc.fresh⟩, hc.fits⟩
    · cases hcap : s.lookupCapability r.device r.cls with
      | some cap =>
          rw [hcapability cap hcap] at hbound
          exact ⟨cap, rfl, hp.capability hset cap hcap hbound⟩
      | none =>
          rw [hbinding] at hbound
          unfold rebind at hbound
          rw [hcap] at hbound
          exact absurd hbound hset
  have hsemantics : s.recheckSemantics r' = s.placedSemantics r.function r.cls := by
    rw [← hfunction, ← hcls]
    rfl
  have hgrant : authorityRecheck g ⟨.place, r'.cls, r'.kind, r'.host, r'.scopeId,
      s.recheckSemantics r', s.policyGeneration⟩ now = .ok ↔
      .place ∈ g.actions ∧ (g.semanticsCeiling.isEmpty = false →
        (s.placedSemantics r.function r.cls).isSubsetOf g.semanticsCeiling = true) := by
    rw [hsemantics, hcls, hkind, hhost, hscope]
    exact authorityRecheck_eq_ok hadmits
  have hset : r'.authority.isSet := by
    rw [hauthority]
    intro hnone
    exact h.named (Token.ext hnone)
  constructor
  · intro hv
    obtain ⟨g', hg'⟩ := hv.grant hset
    have hsame : g' = g := by
      have hfound := hg'.found
      rw [hauthority, h.grant, Option.some.injEq] at hfound
      exact hfound.symm
    rw [hsame] at hg'
    obtain ⟨hplaces, hceiling⟩ := hgrant.mp hg'.places
    refine ⟨fun _ cap hcap hgeneration ↦ ?_, hg'.current, hplaces, hceiling⟩
    rw [← hcapability cap hcap] at hgeneration
    obtain ⟨cap', hc⟩ := hv.target.capability hgeneration
    have hfound := hc.found
    rw [hdevice, hcls, hcap, Option.some.injEq] at hfound
    rw [hfound, ← hfunction, ← hincarnation]
    exact ⟨⟨hc.current, hc.fresh⟩, hc.fits⟩
  · intro hp
    refine ⟨⟨⟨t, d, ht.topology, ht.current, ht.fresh, ?_, hdevice ▸ ht.device, ht.live,
      hincarnation ▸ ht.incarnation⟩, ⟨policy, rule, ⟨hpolicy.policy, hpolicy.current,
        hpolicy.fresh, hcls ▸ hpolicy.found, hkind ▸ hpolicy.kind, hkind ▸ hpolicy.fallback⟩,
          fun hfresh ↦ ?_⟩, fun hbound ↦ ?_⟩, ?_, ?_, fun _ ↦ ⟨g, ?_, hp.current,
            hgrant.mpr ⟨hp.places, hp.ceiling⟩⟩⟩
    · rw [htopology]
      exact fun hless ↦ lt_irrefl _ hless.2
    · obtain ⟨o, ho, hknown, hinc, hrest⟩ := hliveness hfresh
      exact ⟨o, hdevice.symm ▸ ho, hknown, hincarnation.symm ▸ hinc, hrest⟩
    · obtain ⟨cap, hcap, ⟨hcurrent, hfresh⟩, hfits⟩ := hlooked hp hbound
      refine ⟨cap, ?_, fun _ ↦ (hcapability cap hcap).symm, hcurrent, hfresh, ?_⟩
      · rw [hdevice, hcls]
        exact hcap
      · rw [hfunction, hincarnation]
        exact hfits
    · intro _
      unfold policyGeneration
      rw [hbinding]
      unfold rebind
      rw [hpolicy.policy]
      rfl
    · intro _
      rw [hfence]
      exact hi.fence_epoch
    · rw [hauthority]
      exact h.grant

/-- A revalidation leaves a valid assignment as it is. -/
theorem revalidated_eq_none {b : Bounds} {r : AssignmentRecord}
    (h : s.assignmentValidity r now = .ok) : s.revalidated b r now = none := by
  unfold revalidated
  simp only [h, if_true, ite_self]

end FabricState

/-- After the step an assignment is valid, and a revalidation at once leaves it as it is. -/
structure Step.Agrees (c : FabricConfig) (m : Impl) (st : Step) (r : AssignmentRecord)
    (now : Micros) : Prop where
  valid : (st.next c m).state.assignmentValidity r now = .ok
  unchanged : (st.next c m).state.revalidated c.bounds r now = none

/-- A placement and a re-authorization judge an assignment by the evidence they found. -/
private theorem Step.agrees_iff {c : FabricConfig} {m : Impl} {st : Step}
    (hop : st.op.establishes = true) (r : AssignmentRecord) (now : Micros) :
    st.Agrees c m r now ↔ m.state.assignmentValidity r now = .ok := by
  rw [← (Step.sameEvidence (c := c) (m := m) hop).assignmentValidity r now]
  exact ⟨fun h ↦ h.valid, fun h ↦ ⟨h, revalidated_eq_none h⟩⟩

/-- **Placement agrees with revalidation.** The holder that a placement, a plan applied or a
re-authorization answers with is valid exactly under conditions that its own checks leave open:
those of its evidence and its grant if it is new, and its validity before if it is not. -/
theorem placement_agrees_with_revalidation (c : FabricConfig) (m : Impl) (st : Step)
    (r : AssignmentRecord) (hop : st.op.establishes = true)
    (hanswer : (st.exec c m).1 = .ok (some r)) (hholds : r.state.holdsAuthority = true) :
    (¬ st.op.Missed c m.state → ∀ now,
        st.Agrees c m r now ↔ m.state.assignmentValidity r now = .ok) ∧
      (st.op.Missed c m.state →
        (∀ request p options now, st.op.placed m.state = some request →
          st.op.authorization c st.now m.state = some (p, options, now) →
          (st.Agrees c m r now ↔ m.state.PlacementHolds p now)) ∧
        (∀ planned options, st.op = .applyPlan planned options →
          (st.Agrees c m r (st.now 0) ↔ m.state.PlanHolds planned.plan (st.now 0))) ∧
        ∀ request r₀, st.op = .reauthorize request →
          m.state.assignments.find? request.assignment = some r₀ →
          (r₀.state.holdsAuthority = true →
            (st.Agrees c m r (st.now 0) ↔ m.state.assignmentValidity r₀ (st.now 0) = .ok)) ∧
          (r₀.state.holdsAuthority = false →
            ∀ g, m.state.authority.find? request.authority = some g →
              (st.Agrees c m r (st.now 0) ↔ m.state.ReauthorizationHolds (st.now 0) r₀ g))) := by
  have hagrees := fun now ↦ Step.agrees_iff (c := c) (m := m) hop r now
  have hans := st.answered hop hanswer
  refine ⟨fun _ now ↦ hagrees now, fun hmiss ↦ ?_⟩
  simp only [hagrees, assignmentValidity_eq_ok]
  generalize st.op = op at hans hmiss
  cases hans with
  | recalled h =>
      obtain ⟨k, entry, hk, hentry, -⟩ := h.exists_entry
      have hnone := hmiss k hk
      rw [hentry] at hnone
      cases hnone
  | held _ hfind hheld =>
      refine ⟨fun _ _ _ _ hplaced ↦ (by cases hplaced), fun _ _ hplan ↦ (by cases hplan),
        fun request r₀ heq hr₀ ↦ ?_⟩
      cases heq
      rw [hfind, Option.some.injEq] at hr₀
      rw [← hr₀, hheld]
      exact ⟨fun _ ↦ Iff.rfl, fun hfree ↦ by cases hfree⟩
  | @created op p' options' auth t i issued _ ha hi =>
      obtain ⟨⟨t', policy, d, rule, hauth⟩, heq⟩ := authorizeChecks_eq_ok.mp ha.checked
      have hscope : auth.scope = p'.scopeId := by rw [heq]
      have hvalid : m.state.Valid (newAssignment c m.state p' auth options'.requestId i.id i.lease
          i.attempt i.fence t) t ↔ _ := newAssignment_valid_iff hauth hscope hi
      refine ⟨fun request p options now hplaced hasked ↦ ?_, fun planned options hplan ↦ ?_,
        fun request r₀ hre ↦ ?_⟩
      · have hsame := hasked.symm.trans ha.asked
        cases hsame
        obtain ⟨-, cancelled, planned, hplanned, hd, rfl⟩ := Op.placed_authorization hplaced hasked
        exact hvalid.trans (planHolds_iff hplanned hd hauth)
      · have hasked := ha.asked
        rw [hplan] at hasked
        cases hasked
        exact hvalid
      · have hasked := ha.asked
        rw [hre] at hasked
        cases hasked
  | @reauthorized request r₁ validity lease attempt fence issued _ hi hfind hfree hcheck =>
      refine ⟨fun _ _ _ _ hplaced ↦ (by cases hplaced), fun _ _ hplan ↦ (by cases hplan),
        fun request r₀ heq hr₀ ↦ ?_⟩
      cases heq
      rw [hfind, Option.some.injEq] at hr₀
      rw [← hr₀, hfree]
      refine ⟨fun hheld ↦ (by cases hheld), fun _ g hg ↦ ?_⟩
      obtain ⟨g', hre⟩ := reauthorizationChecks_eq_ok.mp hcheck
      have hgrant : g' = g := Option.some.inj (hre.grant.symm.trans hg)
      rw [hgrant] at hre
      have hvalidity : validity = .ok := by
        refine hre.usable.resolve_right fun hdegraded ↦ ?_
        rw [hdegraded] at hholds
        cases hholds
      rw [hvalidity] at hre ⊢
      exact reauthorized_valid_iff hre hi

private theorem Sample.places : (Sample.step (.apply Sample.request {})).answersWith {}
    (run {} Sample.ready) (fun r ↦ decide (r.state.holdsAuthority = true ∧ r.kind = .dpu ∧
      r.binding.capability = 0)) = true := by decide +kernel

/-- A placement of the small deployment agrees with a revalidation. -/
theorem placement_agrees_with_revalidation_placed :
    let m := run {} Sample.ready
    let st := Sample.step (.apply Sample.request {})
    ∃ r, (st.exec {} m).1 = .ok (some r) ∧ r.state.holdsAuthority = true ∧ st.Agrees {} m r 2 := by
  intro m st
  obtain ⟨r, hanswer, h⟩ := Step.exists_answer Sample.places
  obtain ⟨hholds, hkind, hbound⟩ := of_decide_eq_true h
  have hmiss : st.op.Missed {} m.state := by
    intro k hk
    cases hk
    decide +kernel
  have hfresh : (∀ t ∈ m.state.topology, ¬ t.freshness.isExpired 2) ∧
    ∀ p ∈ m.state.policy, ¬ p.freshness.isExpired 2 := by decide +kernel
  refine ⟨r, hanswer, hholds, ?_⟩
  have hiff := ((placement_agrees_with_revalidation {} m st r rfl hanswer hholds).2 hmiss).1
  cases st.answered rfl hanswer with
  | recalled h =>
      obtain ⟨k, entry, hk, hentry, -⟩ := h.exists_entry
      have hnone := hmiss k hk
      rw [hentry] at hnone
      cases hnone
  | @created _ p options auth t i issued _ ha hi =>
      obtain ⟨rfl, -⟩ := Op.placed_authorization rfl ha.asked
      refine (hiff Sample.request p options 2 rfl ha.asked).mpr ⟨hfresh.1, hfresh.2, ?_, ?_⟩
      · intro hhost
        exact absurd (hhost.symm.trans hkind) (by decide)
      · intro hset
        exact absurd hbound hset

namespace Sample

/-- One host without a device, and a rule that admits it as a fallback. -/
def hostOnly : List Step :=
  [step (.start boot),
    step (.ingestTopology { topology with
      devices := [⟨device, host, .hostStack, ⟨1, boot⟩, ⟨{ flows := 10 }⟩, [], false⟩] }),
    step (.ingestPolicy { policy with
      rules := policy.rules.map fun rule ↦ { rule with allowHostFallback := true } })]

end Sample

private theorem Sample.places_fallback :
    (Sample.step (.apply { Sample.request with allowHostFallback := true } {})).answersWith {}
      (run {} Sample.hostOnly) (fun r ↦ decide (r.state.holdsAuthority = true ∧
        (run {} Sample.hostOnly).state.assignmentValidity r 2 = .deviceKindNotPermitted)) =
      true := by decide +kernel

/-- A host fallback that the policy admits is placed on a kind it does not allow, and is not
valid. -/
theorem host_fallback_placed_invalid :
    let m := run {} Sample.hostOnly
    let st := Sample.step (.apply { Sample.request with allowHostFallback := true } {})
    ∃ r, (st.exec {} m).1 = .ok (some r) ∧ r.state.holdsAuthority = true ∧
      (st.next {} m).state.assignmentValidity r 2 = .deviceKindNotPermitted := by
  intro m st
  obtain ⟨r, hanswer, h⟩ := Step.exists_answer Sample.places_fallback
  obtain ⟨hholds, hvalidity⟩ := of_decide_eq_true h
  have hevidence : SameEvidence m.state (st.next {} m).state := Step.sameEvidence rfl
  have hsame := hevidence.assignmentValidity r 2
  exact ⟨r, hanswer, hholds, hsame.trans hvalidity⟩

end OffloadFabric
