import OffloadFabric.Fabric.Candidates
import OffloadFabric.Fabric.Lifecycle
import OffloadFabric.Fabric.Authorize

/-!
# What planning, authorization and re-authorization establish

The decisions of `src/fabric.cpp:2304-2560,3423-3535,3895-3933` read as conjunctions: the
evidence a plan rests on and its selected candidate, the checks an authorization repeats, and
those of a re-authorization.
-/

namespace OffloadFabric

open Lib Wire

namespace FabricState

variable {s : FabricState} {b : Bounds} {request : PlacementRequest} {now : Micros}

/-- The rule of the current policy for a class. -/
def ruleFor (s : FabricState) (cls : FunctionClass) : Option PolicyRule :=
  s.policy.bind (·.findRule cls)

theorem ruleFor_eq_some {cls : FunctionClass} {p : PolicySnapshot} {rule : PolicyRule}
    (hp : s.policy = some p) (h : p.findRule cls = some rule) : s.ruleFor cls = some rule := by
  unfold ruleFor
  rw [hp]
  exact h

/-! ## Plans -/

/-- The semantics a request requires with those registered for its function. -/
def requirement (s : FabricState) (request : PlacementRequest) : SemanticsMask :=
  match s.functions.find? request.function with
  | none => request.required
  | some f => f.required.unite request.required

/-- The version required of a request: that registered for its function, if any. -/
def requiredVersion (s : FabricState) (request : PlacementRequest) : SemanticVersion :=
  match s.functions.find? request.function with
  | none => request.requiredVersion
  | some f => f.requiredVersion

/-- A request agrees with the registration of its function. -/
def AgreesWithFunction (s : FabricState) (request : PlacementRequest) : Prop :=
  ∀ f, s.functions.find? request.function = some f → f.cls = request.cls ∧
    ((request.requiredVersion.major = 0 ∧ request.requiredVersion.minor = 0) ∨
      request.requiredVersion = f.requiredVersion)

theorem planFunction_eq_ok {f : FunctionDescriptor} : s.planFunction request = .ok f ↔
    s.AgreesWithFunction request ∧
      f = ⟨request.function, request.cls, s.requirement request, s.requiredVersion request,
        true⟩ := by
  unfold planFunction AgreesWithFunction requirement requiredVersion
  cases s.functions.find? request.function with
  | none =>
      constructor
      · intro h
        exact ⟨fun f hf ↦ (by cases hf), (Except.ok.inj h).symm⟩
      · rintro ⟨-, rfl⟩
        rfl
  | some g =>
      simp only [require_bind_eq_ok, Option.some.injEq, forall_eq']
      constructor
      · rintro ⟨hcls, hversion, h⟩
        exact ⟨⟨hcls, hversion⟩, (Except.ok.inj h).symm⟩
      · rintro ⟨⟨hcls, hversion⟩, rfl⟩
        exact ⟨hcls, hversion, rfl⟩

/-- The topology and the policy a plan rests on. -/
structure PlanEvidence (s : FabricState) (request : PlacementRequest) (now : Micros)
    (t : TopologySnapshot) (p : PolicySnapshot) : Prop where
  topology : s.topology = some t
  policy : s.policy = some p
  topologyCurrent :
    s.evidenceCurrent t.provenance.source .topology t.provenance.sequence = true
  topologyFresh : ¬ t.freshness.isExpired now
  policyCurrent : s.evidenceCurrent p.provenance.source .policy p.provenance.sequence = true
  policyFresh : ¬ p.freshness.isExpired now
  minTopology : ¬ (Gen.isSet request.minTopology ∧ t.generation < request.minTopology)
  minPolicy : ¬ (Gen.isSet request.minPolicy ∧ p.generation < request.minPolicy)

theorem planEvidence_eq_ok {t : TopologySnapshot} {p : PolicySnapshot}
    (h : s.planEvidence request now = .ok (t, p)) : s.PlanEvidence request now t p := by
  unfold planEvidence at h
  obtain ⟨t', ht, h⟩ := present_bind_eq_ok.mp h
  obtain ⟨p', hp, h⟩ := present_bind_eq_ok.mp h
  obtain ⟨htcurrent, h⟩ := require_bind_eq_ok.mp h
  obtain ⟨htfresh, h⟩ := require_bind_eq_ok.mp h
  obtain ⟨hpcurrent, h⟩ := require_bind_eq_ok.mp h
  obtain ⟨hpfresh, h⟩ := require_bind_eq_ok.mp h
  obtain ⟨hmint, h⟩ := require_bind_eq_ok.mp h
  obtain ⟨hminp, h⟩ := require_bind_eq_ok.mp h
  cases h
  exact ⟨ht, hp, htcurrent, htfresh, hpcurrent, hpfresh, hmint, hminp⟩

/-- The context a request is planned in. -/
structure Planning (s : FabricState) (b : Bounds) (request : PlacementRequest) (now : Micros)
    (t : TopologySnapshot) (c : EvaluationContext) : Prop where
  scope : scopeIdentity request.scope = .ok c.requestScope
  evidence : s.PlanEvidence request now t c.policy
  agrees : s.AgreesWithFunction request
  bounded : c.function.required.count ≤ b.maxSemanticsPerRequirement.toNat
  rule : c.policy.findRule request.cls = some c.rule
  free : request.requestReplacement = false → c.replacing = .empty
  context : c = ⟨s, now, ⟨request.function, request.cls, s.requirement request,
    s.requiredVersion request, true⟩, c.rule, c.policy, request, c.requestScope,
    s.currentHolder request c.requestScope⟩

private theorem mem_of_foldl_best {e : CandidateEvaluation} (xs : List CandidateEvaluation)
    (best : Option CandidateEvaluation)
    (h : xs.foldl (fun best candidate ↦
      match best with
      | none => some candidate
      | some b => if candidatePrecedes candidate b then some candidate else some b) best =
        some e) : best = some e ∨ e ∈ xs := by
  induction xs generalizing best with
  | nil => exact .inl h
  | cons x xs ih =>
      rcases ih _ h with hbest | hmem
      · cases best with
        | none =>
            cases hbest
            exact .inr List.mem_cons_self
        | some b =>
            simp only at hbest
            split at hbest
            · cases hbest
              exact .inr List.mem_cons_self
            · exact .inl hbest
      · exact .inr (List.mem_cons_of_mem _ hmem)

theorem mem_of_bestCandidate {candidates : List CandidateEvaluation} {e : CandidateEvaluation}
    (h : bestCandidate candidates = some e) : e ∈ candidates := by
  rcases mem_of_foldl_best candidates none h with hnone | hmem
  · cases hnone
  · exact hmem

end FabricState

namespace EvaluationContext

variable (c : EvaluationContext) (t : TopologySnapshot) (d : DeviceRecord)

/-- The plan for an eligible device, before its digest, `src/fabric.cpp:2491-2527`. -/
def draft : AssignmentPlan where
  requestId := c.request.requestId
  function := c.request.function
  cls := c.request.cls
  scope := c.request.scope
  scopeId := c.requestScope
  exclusivity := c.request.exclusivity
  exclusiveKey := c.rule.exclusiveKey
  mode := if d.kind = .hostStack then .hostFallback else .offloaded
  device := d.id
  host := d.host
  kind := d.kind
  incarnation := d.incarnation
  demand := c.request.demand
  binding := {
    topology := t.generation
    policy := c.policy.generation
    assignment := 1
    capability := c.boundCapability d
    schema := match c.state.lookupCapability d.id c.request.cls with
      | some capability => capability.schema
      | none => 0 }
  effectiveRequirement := c.function.required.unite c.rule.required
  authority := if c.rule.requireAuthority then c.state.findAdmittingAuthority (c.intent d) c.now
    else .empty
  planDigest := .zero

/-- The draft with its digest, zero where it is too long to encode. -/
def signedDraft (b : Bounds) : AssignmentPlan :=
  { c.draft t d with
    planDigest := match digestWith (encPlan (c.draft t d)) b.maxCanonicalBytes.toNat with
      | .ok digest => digest
      | .error _ => .zero }

end EvaluationContext

namespace FabricState

variable {s : FabricState} {b : Bounds} {request : PlacementRequest} {now : Micros}

private theorem finalizeRanking_eq (e : CandidateEvaluation) (capacity : CapacityVector)
    (committed : DemandVector) (scope : ScopeSpec) (preferredHosts : List HostId) :
    ∃ rank offloadRank kindRank localityRank utilizationPpm,
      finalizeRanking e capacity committed scope preferredHosts =
        { e with rank, offloadRank, kindRank, localityRank, utilizationPpm } :=
  ⟨_, _, _, _, _, rfl⟩

/-- Ranking a candidate leaves what its evaluation established. -/
theorem planCandidate_eq (s : FabricState) (c : EvaluationContext) (d : DeviceRecord) :
    ∃ rank offloadRank kindRank localityRank utilizationPpm evaluationDigest,
      s.planCandidate c d = { c.evaluateDevice d with
        rank, offloadRank, kindRank, localityRank, utilizationPpm, evaluationDigest } := by
  unfold planCandidate
  extract_lets e
  obtain ⟨rank, offloadRank, kindRank, localityRank, utilizationPpm, heq⟩ := finalizeRanking_eq
    (c.evaluateDevice d) d.capacity (s.committedDemandFor d.id) c.request.scope
    c.request.preferredHosts
  have he : e = { c.evaluateDevice d with
    rank, offloadRank, kindRank, localityRank, utilizationPpm } := heq
  rw [he]
  split
  · exact ⟨_, _, _, _, _, _, rfl⟩
  · exact ⟨_, _, _, _, _, _, rfl⟩

/-- The plan for an eligible candidate is its signed draft. -/
private theorem planFor_eq {c : EvaluationContext} {t : TopologySnapshot} {d : DeviceRecord}
    (hstate : c.state = s) (h : c.Eligible d) :
    s.planFor b c { topology := t.generation, policy := c.policy.generation, assignment := 1 }
      (s.planCandidate c d) = c.signedDraft t d b := by
  obtain ⟨contributing, heq⟩ := EvaluationContext.evaluateDevice_of_eligible h
  obtain ⟨_, _, _, _, _, _, hcandidate⟩ := s.planCandidate_eq c d
  rw [heq] at hcandidate
  subst hstate
  unfold planFor EvaluationContext.signedDraft EvaluationContext.draft EvaluationContext.intent
  rw [hcandidate]
  simp only [EvaluationContext.eligibleEvaluation, EvaluationContext.candidateOf]
  generalize digestWith _ _ = answer
  cases answer <;> rfl

private theorem acceptedPlan_ok {c : EvaluationContext} {base : PlanResult} {truncated : Bool}
    {selected : CandidateEvaluation}
    (hd : (s.acceptedPlan b c base truncated selected).decision ≠ .refuse) :
    (s.acceptedPlan b c base truncated selected).plan =
        s.planFor b c base.explanation.binding selected ∧
      (c.rule.requireAuthority = true →
        (s.planFor b c base.explanation.binding selected).authority ≠ .empty) ∧
      (s.acceptedPlan b c base truncated selected).decision =
        if c.replacing = .empty then .accept else .replace := by
  unfold acceptedPlan at hd ⊢
  generalize s.planFor b c base.explanation.binding selected = plan at hd ⊢
  simp only at hd ⊢
  by_cases hrefused : c.rule.requireAuthority = true ∧ plan.authority = .empty
  · rw [if_pos hrefused] at hd
    exact absurd rfl hd
  · rw [if_neg hrefused]
    exact ⟨rfl, fun hrequired hnone ↦ hrefused ⟨hrequired, hnone⟩, rfl⟩

/-- The candidates of a plan leave a refusal, or the acceptance of an eligible one. -/
private theorem planCandidates_cases {c : EvaluationContext} {t : TopologySnapshot}
    {explanation : Explanation} {planned : PlanResult}
    (h : s.planCandidates b c t explanation = planned) :
    planned.decision = .refuse ∨
      ∃ base truncated d, base.explanation.binding =
          { topology := t.generation, policy := c.policy.generation, assignment := 1 } ∧
        d ∈ t.devices ∧ (s.planCandidate c d).eligible = true ∧
        planned = s.acceptedPlan b c base truncated (s.planCandidate c d) := by
  unfold planCandidates at h
  extract_lets limit truncated candidates reported base at h
  have hbinding : base.explanation.binding =
    { topology := t.generation, policy := c.policy.generation, assignment := 1 } := rfl
  clear_value base
  split at h
  · rw [← h]
    exact .inl rfl
  · next selected hbest =>
      obtain ⟨hselected, heligible⟩ := List.mem_filter.mp (mem_of_bestCandidate hbest)
      obtain ⟨d, hmem, hd⟩ := List.mem_map.mp hselected
      rw [← hd] at h heligible
      exact .inr ⟨base, truncated, d, hbinding, List.mem_of_mem_take hmem, heligible, h.symm⟩

private theorem planCandidates_ok {c : EvaluationContext} {t : TopologySnapshot}
    {explanation : Explanation} (hstate : c.state = s)
    (hd : (s.planCandidates b c t explanation).decision ≠ .refuse) :
    ∃ d ∈ t.devices, c.Eligible d ∧
      (s.planCandidates b c t explanation).plan = c.signedDraft t d b ∧
      (c.rule.requireAuthority = true → (c.signedDraft t d b).authority ≠ .empty) ∧
      (s.planCandidates b c t explanation).decision =
        if c.replacing = .empty then .accept else .replace := by
  rcases planCandidates_cases (s := s) (b := b) (c := c) (t := t) rfl with
    hrefuse | ⟨base, truncated, d, hbinding, hmem, heligible, heq⟩
  · exact absurd hrefuse hd
  · rw [heq] at hd ⊢
    have hd' : c.Eligible d := by
      refine EvaluationContext.eligible_of_evaluateDevice ?_
      obtain ⟨_, _, _, _, _, _, hcandidate⟩ := s.planCandidate_eq c d
      rw [hcandidate] at heligible
      exact heligible
    obtain ⟨hplan, hauthority, hdecision⟩ := acceptedPlan_ok hd
    rw [hbinding, planFor_eq hstate hd'] at hplan hauthority
    exact ⟨d, hmem, hd', hplan, hauthority, hdecision⟩

/-- A plan that is not refused is the signed draft of an eligible device, with a grant where the
rule asks for one. -/
theorem planLocked_ok {cancelled : Bool} {planned : PlanResult}
    (h : s.planLocked b request cancelled now = .ok planned) (hd : planned.decision ≠ .refuse) :
    ∃ t c d, s.Planning b request now t c ∧ d ∈ t.devices ∧ c.Eligible d ∧
      planned.plan = c.signedDraft t d b ∧
      (c.rule.requireAuthority = true → (c.signedDraft t d b).authority ≠ .empty) ∧
      planned.decision = if c.replacing = .empty then .accept else .replace := by
  unfold planLocked at h
  obtain ⟨-, h⟩ := require_bind_eq_ok.mp h
  obtain ⟨scope, hscope, h⟩ := bind_eq_ok.mp h
  obtain ⟨-, h⟩ := require_bind_eq_ok.mp h
  split at h
  · cases h
    exact absurd rfl hd
  · next t p hevidence =>
      have hevidence := planEvidence_eq_ok hevidence
      split at h
      · cases h
        exact absurd rfl hd
      · next f hf =>
          obtain ⟨hagrees, rfl⟩ := planFunction_eq_ok.mp hf
          obtain ⟨hbounded, h⟩ := require_bind_eq_ok.mp h
          split at h
          · cases h
            exact absurd rfl hd
          · next rule hrule =>
              change (if _ then _ else _ : Result PlanResult) = _ at h
              split at h
              · cases h
                exact absurd rfl hd
              · next hfree =>
                  have heq := Except.ok.inj h
                  rw [← heq] at hd ⊢
                  let c : EvaluationContext := ⟨s, now, ⟨request.function, request.cls,
                    s.requirement request, s.requiredVersion request, true⟩, rule, p, request,
                    scope, s.currentHolder request scope⟩
                  have hplanning : s.Planning b request now t c := by
                    refine ⟨hscope, hevidence, hagrees, hbounded, hrule, fun hno ↦ ?_, rfl⟩
                    by_contra hne
                    exact hfree ⟨hno, hne⟩
                  obtain ⟨d, hmem, heligible, hplan⟩ := planCandidates_ok (c := c) rfl hd
                  exact ⟨t, c, d, hplanning, hmem, heligible, hplan⟩

/-! ## Authorizations -/

/-- The context a plan is checked in, `src/fabric.cpp:3486-3515`. -/
def authorizedContext (s : FabricState) (p : AssignmentPlan) (rule : PolicyRule)
    (policy : PolicySnapshot) (replacing : AssignmentId) (now : Micros) : EvaluationContext :=
  ⟨s, now, s.authorizedFunction p, rule, policy, s.syntheticRequest p, p.scopeId, replacing⟩

/-- What the authorization of a plan rests on. -/
structure Authorizes (s : FabricState) (b : Bounds) (p : AssignmentPlan)
    (allowReplacement : Bool) (now : Micros) (t : TopologySnapshot) (policy : PolicySnapshot)
    (d : DeviceRecord) (rule : PolicyRule) (replacing : AssignmentId) : Prop where
  digest : p.digest b = .ok p.planDigest
  scope : scopeIdentity p.scope = .ok p.scopeId
  foundTopology : s.topology = some t
  foundPolicy : s.policy = some policy
  topologyGeneration : t.generation = p.binding.topology
  policyGeneration : policy.generation = p.binding.policy
  foundDevice : t.findDevice p.device = some d
  live : d.decommissioned = false
  incarnation : d.incarnation = p.incarnation
  capability : Gen.isSet p.binding.capability →
    ∃ r, s.lookupCapability p.device p.cls = some r ∧ r.generation = p.binding.capability
  foundRule : policy.findRule p.cls = some rule
  holder : s.replacementChecks p p.scopeId rule allowReplacement now = .ok replacing
  eligible : (s.authorizedContext p rule policy replacing now).Eligible d
  authority : s.placementAuthorityChecks p policy rule p.scopeId now = .ok ()

private theorem planEvidenceChecks_eq_ok {p : AssignmentPlan} {derived : ScopeId}
    {policy : PolicySnapshot} {d : DeviceRecord} {rule : PolicyRule} :
    s.planEvidenceChecks b p = .ok (derived, policy, d, rule) ↔
      p.digest b = .ok p.planDigest ∧ scopeIdentity p.scope = .ok p.scopeId ∧
        derived = p.scopeId ∧ ∃ t, s.topology = some t ∧ s.policy = some policy ∧
        t.generation = p.binding.topology ∧ policy.generation = p.binding.policy ∧
        t.findDevice p.device = some d ∧ d.decommissioned = false ∧
        d.incarnation = p.incarnation ∧
        (Gen.isSet p.binding.capability → ∃ r, s.lookupCapability p.device p.cls = some r ∧
          r.generation = p.binding.capability) ∧ policy.findRule p.cls = some rule := by
  unfold planEvidenceChecks
  constructor
  · intro h
    obtain ⟨digest, hdigest, h⟩ := bind_eq_ok.mp h
    obtain ⟨hsigned, h⟩ := require_bind_eq_ok.mp h
    obtain ⟨scope, hscope, h⟩ := bind_eq_ok.mp h
    obtain ⟨hderived, h⟩ := require_bind_eq_ok.mp h
    obtain ⟨t, ht, h⟩ := present_bind_eq_ok.mp h
    obtain ⟨policy', hpolicy, h⟩ := present_bind_eq_ok.mp h
    obtain ⟨htopology, h⟩ := require_bind_eq_ok.mp h
    obtain ⟨hgeneration, h⟩ := require_bind_eq_ok.mp h
    obtain ⟨d', hd, h⟩ := present_bind_eq_ok.mp h
    obtain ⟨hlive, h⟩ := require_bind_eq_ok.mp h
    obtain ⟨hincarnation, h⟩ := require_bind_eq_ok.mp h
    rw [← hsigned, hderived]
    by_cases hset : Gen.isSet p.binding.capability
    · obtain ⟨r, hr, h⟩ := present_bind_eq_ok.mp ((if_pos hset).symm.trans h)
      obtain ⟨hsame, h⟩ := require_bind_eq_ok.mp h
      obtain ⟨rule', hrule, h⟩ := present_bind_eq_ok.mp h
      cases h
      exact ⟨hdigest, hscope, rfl, t, ht, hpolicy, htopology, hgeneration, hd, hlive,
        hincarnation, fun _ ↦ ⟨r, hr, hsame⟩, hrule⟩
    · obtain ⟨rule', hrule, h⟩ := present_bind_eq_ok.mp ((if_neg hset).symm.trans h)
      cases h
      exact ⟨hdigest, hscope, rfl, t, ht, hpolicy, htopology, hgeneration, hd, hlive,
        hincarnation, fun h ↦ absurd h hset, hrule⟩
  · rintro ⟨hdigest, hscope, rfl, t, ht, hpolicy, htopology, hgeneration, hd, hlive,
      hincarnation, hcapability, hrule⟩
    refine bind_eq_ok.mpr ⟨_, hdigest, require_bind_eq_ok.mpr ⟨rfl, bind_eq_ok.mpr ⟨_, hscope,
      require_bind_eq_ok.mpr ⟨rfl, present_bind_eq_ok.mpr ⟨t, ht, present_bind_eq_ok.mpr
        ⟨policy, hpolicy, require_bind_eq_ok.mpr ⟨htopology, require_bind_eq_ok.mpr
          ⟨hgeneration, present_bind_eq_ok.mpr ⟨d, hd, require_bind_eq_ok.mpr ⟨hlive,
            require_bind_eq_ok.mpr ⟨hincarnation, ?_⟩⟩⟩⟩⟩⟩⟩⟩⟩⟩⟩
    by_cases hset : Gen.isSet p.binding.capability
    · obtain ⟨r, hr, hsame⟩ := hcapability hset
      exact (if_pos hset).trans (present_bind_eq_ok.mpr ⟨r, hr, require_bind_eq_ok.mpr ⟨hsame,
        present_bind_eq_ok.mpr ⟨rule, hrule, rfl⟩⟩⟩)
    · exact (if_neg hset).trans (present_bind_eq_ok.mpr ⟨rule, hrule, rfl⟩)

/-- The checks of an authorization pass exactly for what they rest on. -/
theorem authorizeChecks_eq_ok {p : AssignmentPlan} {allowReplacement : Bool}
    {auth : Authorization} : s.authorizeChecks b p allowReplacement now = .ok auth ↔
      (∃ t policy d rule,
        s.Authorizes b p allowReplacement now t policy d rule auth.replacing) ∧
        auth = ⟨p.scopeId, auth.replacing, s.syntheticRequest p,
          s.lookupCapability p.device p.cls⟩ := by
  unfold authorizeChecks
  constructor
  · intro h
    obtain ⟨⟨derived, policy, d, rule⟩, hevidence, h⟩ := bind_eq_ok.mp h
    obtain ⟨replacing, hreplacing, h⟩ := bind_eq_ok.mp h
    obtain ⟨heligible, h⟩ := require_bind_eq_ok.mp h
    obtain ⟨_, hauthority, h⟩ := bind_eq_ok.mp h
    obtain ⟨hdigest, hscope, rfl, t, ht, hpolicy, htopology, hgeneration, hd, hlive,
      hincarnation, hcapability, hrule⟩ := planEvidenceChecks_eq_ok.mp hevidence
    cases h
    exact ⟨⟨t, policy, d, rule, hdigest, hscope, ht, hpolicy, htopology, hgeneration, hd, hlive,
      hincarnation, hcapability, hrule, hreplacing,
      EvaluationContext.eligible_of_evaluateDevice heligible, hauthority⟩, rfl⟩
  · rintro ⟨⟨t, policy, d, rule, h⟩, hauth⟩
    have hevidence := planEvidenceChecks_eq_ok.mpr ⟨h.digest, h.scope, rfl, t, h.foundTopology,
      h.foundPolicy, h.topologyGeneration, h.policyGeneration, h.foundDevice, h.live,
      h.incarnation, h.capability, h.foundRule⟩
    refine bind_eq_ok.mpr ⟨_, hevidence, bind_eq_ok.mpr ⟨_, h.holder,
      require_bind_eq_ok.mpr ⟨?_, bind_eq_ok.mpr ⟨(), h.authority, ?_⟩⟩⟩⟩
    · obtain ⟨contributing, heq⟩ := EvaluationContext.evaluateDevice_of_eligible h.eligible
      change ((s.authorizedContext p rule policy auth.replacing now).evaluateDevice d).eligible =
        true
      rw [heq]
      rfl
    · rw [hauth]
      rfl

section

variable {p : AssignmentPlan} {now₁ : Micros} {t₁ t : TopologySnapshot}
  {e : EvaluationContext} {d₁ d : DeviceRecord} {allowReplacement : Bool}
  {policy : PolicySnapshot} {rule : PolicyRule} {replacing : AssignmentId}

theorem Authorizes.ruleFor
    (ha : s.Authorizes b p allowReplacement now t policy d rule replacing) (rule' : PolicyRule) :
    s.ruleFor p.cls = some rule' ↔ rule' = rule := by
  rw [ruleFor_eq_some ha.foundPolicy ha.foundRule, Option.some.injEq, eq_comm]

theorem Authorizes.policyGeneration_eq
    (ha : s.Authorizes b p allowReplacement now t policy d rule replacing) :
    policy.generation = s.policyGeneration := by
  unfold FabricState.policyGeneration
  rw [ha.foundPolicy]

/-- What the authorization of a plan asks a grant for. -/
def planIntent (s : FabricState) (p : AssignmentPlan) (rule : PolicyRule) : Intent :=
  ⟨.place, p.cls, p.kind, p.host, p.scopeId, p.effectiveRequirement.unite rule.required,
    s.policyGeneration⟩

/-- The grant a plan is authorized by: the one it names, or the first that admits it. -/
def planGrant (s : FabricState) (p : AssignmentPlan) (rule : PolicyRule) (now : Micros) :
    AuthorityId :=
  if p.authority.isSet then p.authority else s.findAdmittingAuthority (s.planIntent p rule) now

/-- The grant a search finds is current and admits the intent. -/
theorem findAdmittingAuthority_found {i : Intent} {id : AuthorityId}
    (h : s.findAdmittingAuthority i now = id) (hne : id ≠ .empty) :
    ∃ g, s.authority.find? id = some g ∧
      s.evidenceCurrent g.provenance.source .authority g.provenance.sequence = true ∧
      g.Admits i now := by
  unfold findAdmittingAuthority at h
  split at h
  · next g hg =>
      have hmem := List.mem_of_find?_eq_some hg
      have hfound := List.find?_some hg
      rw [Bool.and_eq_true, beq_iff_eq] at hfound
      rw [← h]
      exact ⟨g, Table.mem_values.mp hmem, hfound.1, authorityAdmits_eq_ok.mp hfound.2⟩
  · exact absurd h.symm hne

/-- The grant that a signed draft names is current and admits what the draft asks for. -/
theorem signedDraft_grant {c : EvaluationContext} {t : TopologySnapshot} {d : DeviceRecord}
    (hrequired : c.rule.requireAuthority = true) (hne : (c.signedDraft t d b).authority ≠ .empty) :
    ∃ g, c.state.authority.find? (c.signedDraft t d b).authority = some g ∧
      c.state.evidenceCurrent g.provenance.source .authority g.provenance.sequence = true ∧
      g.Admits (c.intent d) c.now := by
  have hauthority : c.state.findAdmittingAuthority (c.intent d) c.now =
      (c.signedDraft t d b).authority := by
    change _ = if c.rule.requireAuthority = true then
      c.state.findAdmittingAuthority (c.intent d) c.now else .empty
    rw [if_pos hrequired]
  exact findAdmittingAuthority_found hauthority hne

theorem planGrant_of_named {p : AssignmentPlan} {rule : PolicyRule} (h : p.authority ≠ .empty) :
    s.planGrant p rule now = p.authority :=
  if_pos fun hnone ↦ h (Token.ext hnone)

/-- Where the rule asks for a grant, the one a plan is authorized by admits it; one that was
searched for is current. -/
theorem Authorizes.grant (ha : s.Authorizes b p allowReplacement now t policy d rule replacing)
    (hrequired : rule.requireAuthority = true) : s.planGrant p rule now ≠ .empty ∧
    ∃ g, s.authority.find? (s.planGrant p rule now) = some g ∧ g.Admits (s.planIntent p rule) now ∧
      (¬ p.authority.isSet →
        s.evidenceCurrent g.provenance.source .authority g.provenance.sequence = true) := by
  have h := ha.authority
  unfold placementAuthorityChecks at h
  rw [if_pos hrequired, ha.policyGeneration_eq] at h
  unfold planGrant
  by_cases hset : p.authority.isSet
  · simp only [hset, if_true, present_bind_eq_ok, require_eq_ok] at h
    obtain ⟨g, hg, hadmits⟩ := h
    rw [if_pos hset]
    exact ⟨fun hnone ↦ hset (by rw [hnone]; rfl), g, hg, authorityAdmits_eq_ok.mp hadmits,
      fun hno ↦ absurd hset hno⟩
  · simp only [hset, if_false, require_eq_ok] at h
    obtain ⟨g, hg, hcurrent, hadmits⟩ := findAdmittingAuthority_found rfl h
    rw [if_neg hset]
    exact ⟨h, g, hg, hadmits, fun _ ↦ hcurrent⟩

/-! ### Plans authorized in the state they were made in -/

/-- The rule a plan was made under is found again. -/
theorem Planning.rule_eq (hplanning : s.Planning b request now₁ t₁ e)
    (hp : p = e.signedDraft t₁ d₁ b)
    (ha : s.Authorizes b p allowReplacement now t policy d rule replacing) : e.rule = rule := by
  have hcls : p.cls = request.cls := by rw [hp, hplanning.context]; rfl
  exact (ha.ruleFor _).mp (hcls ▸ ruleFor_eq_some hplanning.evidence.policy hplanning.rule)

theorem Planning.effectiveRequirement (hplanning : s.Planning b request now₁ t₁ e)
    (hp : p = e.signedDraft t₁ d₁ b)
    (ha : s.Authorizes b p allowReplacement now t policy d rule replacing) :
    p.effectiveRequirement = (s.requirement request).unite rule.required := by
  rw [← hplanning.rule_eq hp ha, hp, hplanning.context]
  rfl

/-- The grant a plan names is current and admits it. -/
theorem Planning.grant (hplanning : s.Planning b request now₁ t₁ e)
    (hp : p = e.signedDraft t₁ d₁ b)
    (ha : s.Authorizes b p allowReplacement now t policy d rule replacing)
    (hrequired : rule.requireAuthority = true) (hset : p.authority.isSet) :
    ∃ g, s.authority.find? p.authority = some g ∧
      s.evidenceCurrent g.provenance.source .authority g.provenance.sequence = true ∧
      g.Admits (s.planIntent p rule) now := by
  have hne : p.authority ≠ .empty := fun hnone ↦ hset (by rw [hnone]; rfl)
  obtain ⟨-, g, hg, hadmits, -⟩ := ha.grant hrequired
  rw [planGrant_of_named hne] at hg
  have hrequired' : e.rule.requireAuthority = true := (hplanning.rule_eq hp ha).symm ▸ hrequired
  rw [hp] at hne
  obtain ⟨g', hg', hcurrent, -⟩ := signedDraft_grant hrequired' hne
  rw [← hp, hplanning.context] at hg'
  rw [hplanning.context] at hcurrent
  have heq : g' = g := Option.some.inj (hg'.symm.trans hg)
  exact ⟨g, hg, heq ▸ hcurrent, hadmits⟩

end

/-! ## Re-authorizations -/

/-- What a re-authorization rests on. -/
structure Reauthorizes (s : FabricState) (request : ReauthorizeRequest) (r : AssignmentRecord)
    (now : Micros) (validity : ReasonCode) (g : AuthorityGrant) : Prop where
  state : r.state = .suspended ∨ r.state = .degraded
  named : request.authority ≠ .empty
  grant : s.authority.find? request.authority = some g
  admits : authorityAdmits g ⟨.reauthorize, r.cls, r.kind, r.host, r.scopeId,
    s.functionSemantics r.function, s.policyGeneration⟩ now = .ok
  target : s.assignmentTargetValidity r now false = validity
  usable : validity = .ok ∨ validity = .livenessDegraded

theorem reauthorizationChecks_eq_ok {request : ReauthorizeRequest} {r : AssignmentRecord}
    {validity : ReasonCode} : s.reauthorizationChecks request r now = .ok validity ↔
      ∃ g, s.Reauthorizes request r now validity g := by
  unfold reauthorizationChecks
  simp only [require_bind_eq_ok, present_bind_eq_ok]
  constructor
  · rintro ⟨hstate, hnamed, g, hg, hadmits, husable, h⟩
    cases Except.ok.inj h
    exact ⟨g, hstate, hnamed, hg, hadmits, rfl, husable⟩
  · rintro ⟨g, h⟩
    refine ⟨h.state, h.named, g, h.grant, h.admits, ?_, ?_⟩
    · rw [h.target]
      exact h.usable
    · rw [h.target]
      rfl

end FabricState

end OffloadFabric
