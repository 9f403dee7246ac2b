import OffloadFabric.Fabric.Transitions

/-!
# Exact capability matching

What the capability evidence of a planned or created placement covers
(`src/capability.cpp:122-169`, `src/fabric.cpp:1195-1236,2373-2395,3402-3512`): a plan is matched
against the registered and requested semantics, a creation against those of its plan and the
policy.
-/

namespace OffloadFabric

open Lib FabricState

namespace FabricState

variable (s : FabricState) (device : DeviceId) (cls : FunctionClass)

/-- The capability record of a device in its current incarnation is unrevoked and unexpired,
admits the version and supports every one of the semantics. -/
def ExactlyCapable (required : SemanticsMask) (version : SemanticVersion) (now : Micros) :
    Prop :=
  ∃ t d r, s.topology = some t ∧ d ∈ t.devices ∧ d.id = device ∧
    s.lookupCapability device cls = some r ∧ r.revoked = false ∧ ¬ r.freshness.isExpired now ∧
    r.incarnation = d.incarnation ∧ r.versionRange.admits version = true ∧
    required.isSubsetOf r.supported = true

/-- The capability record of a device, if there is one, supports the semantics. -/
def Supports (required : SemanticsMask) : Prop :=
  ∀ r, s.lookupCapability device cls = some r → required.isSubsetOf r.supported = true

/-- The capability record of a device, if there is one, admits the version. -/
def Admits (version : SemanticVersion) : Prop :=
  ∀ r, s.lookupCapability device cls = some r → r.versionRange.admits version = true

/-- The exact match that a request asks of a device under a rule: of the semantics registered
for its function, requested and required by policy, and of the version required. -/
def ExactMatch (request : PlacementRequest) (rule : PolicyRule) (now : Micros) : Prop :=
  s.ExactlyCapable device request.cls ((s.requirement request).unite rule.required)
    (s.requiredVersion request) now

variable {s device cls}

/-- A record that matches a requirement is exactly capable of another as far as it supports the
semantics and admits the version of that. -/
private theorem exactlyCapable_iff {t : TopologySnapshot} {d : DeviceRecord}
    {f : FunctionDescriptor} {r : CapabilityRecord} {now : Micros} {required : SemanticsMask}
    {version : SemanticVersion} (ht : s.topology = some t) (hmem : d ∈ t.devices)
    (hr : s.lookupCapability d.id cls = some r) (h : r.Matches f d.incarnation now) :
    s.ExactlyCapable d.id cls required version now ↔
      s.Supports d.id cls required ∧ s.Admits d.id cls version := by
  constructor
  · rintro ⟨_, _, r', -, -, -, hr', -, -, -, hversion, hsupported⟩
    have hsame : ∀ r₂, s.lookupCapability d.id cls = some r₂ → r₂ = r' := fun r₂ h₂ ↦
      Option.some.inj (h₂.symm.trans hr')
    exact ⟨fun r₂ h₂ ↦ hsame r₂ h₂ ▸ hsupported, fun r₂ h₂ ↦ hsame r₂ h₂ ▸ hversion⟩
  · rintro ⟨hsupported, hversion⟩
    exact ⟨t, d, r, ht, hmem, rfl, hr, h.held, h.fresh, h.incarnation, hversion r hr,
      hsupported r hr⟩

/-- What a record supports of a union it supports of both sides. -/
private theorem supports_unite {a b : SemanticsMask} :
    s.Supports device cls (a.unite b) ↔
      s.Supports device cls a ∧ s.Supports device cls b := by
  unfold Supports
  simp only [SemanticsMask.unite_isSubsetOf]
  constructor
  · intro h
    exact ⟨fun r hr ↦ (h r hr).1, fun r hr ↦ (h r hr).2⟩
  · rintro ⟨ha, hb⟩ r hr
    exact ⟨ha r hr, hb r hr⟩

/-- What the record of an eligible device matched. -/
private theorem supports_of_eligible {c : EvaluationContext} {d : DeviceRecord}
    (h : c.Eligible d) (hkind : d.kind ≠ .hostStack)
    (hrequired : c.rule.requireCapability = true) :
    ∃ r, c.state.lookupCapability d.id c.request.cls = some r ∧
      r.Matches c.function d.incarnation c.now ∧
      c.state.Supports d.id c.request.cls c.function.required ∧
      c.state.Admits d.id c.request.cls c.function.requiredVersion := by
  obtain ⟨r, hr, -, hmatch⟩ := h.exists_capability hkind hrequired
  have hsame : ∀ r₂, c.state.lookupCapability d.id c.request.cls = some r₂ → r = r₂ :=
    fun r₂ h₂ ↦ Option.some.inj (hr.symm.trans h₂)
  exact ⟨r, hr, hmatch, fun r₂ h₂ ↦ hsame r₂ h₂ ▸ hmatch.supported,
    fun r₂ h₂ ↦ hsame r₂ h₂ ▸ hmatch.version⟩

/-- A plan with an offloaded target is matched exactly as far as its record supports what the
policy requires. -/
theorem plan_exactMatch_iff {b : Bounds} {request : PlacementRequest} {cancelled : Bool}
    {now : Micros} {planned : PlanResult} {rule : PolicyRule}
    (h : s.planLocked b request cancelled now = .ok planned) (hd : planned.decision ≠ .refuse)
    (hmode : planned.plan.mode = .offloaded) (hrule : s.ruleFor request.cls = some rule)
    (hrequired : rule.requireCapability = true) :
    planned.plan.cls = request.cls ∧ planned.plan.function = request.function ∧
      planned.plan.effectiveRequirement = (s.requirement request).unite rule.required ∧
      s.Admits planned.plan.device request.cls (s.requiredVersion request) ∧
      (s.ExactMatch planned.plan.device request rule now ↔
        s.Supports planned.plan.device request.cls rule.required) := by
  obtain ⟨t, c, d, hplanning, hmem, heligible, hplan, -, -⟩ := planLocked_ok h hd
  have hcontext := hplanning.context
  have hsame := ruleFor_eq_some hplanning.evidence.policy hplanning.rule
  rw [hrule, Option.some.injEq] at hsame
  rw [hcontext, ← hsame] at heligible hplan
  rw [hplan] at hmode ⊢
  have hkind : d.kind ≠ .hostStack := by
    intro hhost
    have hmode : (if d.kind = .hostStack then ExecutionMode.hostFallback else .offloaded) =
      .offloaded := hmode
    rw [if_pos hhost] at hmode
    cases hmode
  obtain ⟨r, hr, hmatch, hsupports, hadmits⟩ :=
    supports_of_eligible heligible hkind hrequired
  have hiff : s.ExactlyCapable d.id request.cls ((s.requirement request).unite rule.required)
      (s.requiredVersion request) now ↔ _ :=
    exactlyCapable_iff hplanning.evidence.topology hmem hr hmatch
  refine ⟨rfl, rfl, rfl, hadmits, hiff.trans ⟨fun h ↦ (supports_unite.mp h.1).2, fun h ↦ ?_⟩⟩
  exact ⟨supports_unite.mpr ⟨hsupports, h⟩, hadmits⟩

/-- An authorized plan with an offloaded target is matched for its effective requirement, and
exactly as far as the record supports what is asked for and admits the version. -/
theorem authorize_exactMatch_iff {b : Bounds} {p : AssignmentPlan} {allowReplacement : Bool}
    {now : Micros} {auth : Authorization} {request : PlacementRequest} {rule : PolicyRule}
    (h : s.authorizeChecks b p allowReplacement now = .ok auth) (hmode : p.mode = .offloaded)
    (hcls : p.cls = request.cls) (hrule : s.ruleFor request.cls = some rule)
    (hrequired : rule.requireCapability = true) :
    s.Supports p.device request.cls p.effectiveRequirement ∧
      s.Admits p.device request.cls (s.authorizedFunction p).requiredVersion ∧
      (s.ExactMatch p.device request rule now ↔
        s.Supports p.device request.cls ((s.requirement request).unite rule.required) ∧
          s.Admits p.device request.cls (s.requiredVersion request)) := by
  rw [← hcls] at hrule ⊢
  obtain ⟨⟨t, policy, d, rule', hauth⟩, -⟩ := authorizeChecks_eq_ok.mp h
  have hsame := ruleFor_eq_some hauth.foundPolicy hauth.foundRule
  rw [hrule, Option.some.injEq] at hsame
  obtain ⟨hmem, hid⟩ := lowerBound_eq_some hauth.foundDevice
  have hkind : d.kind ≠ .hostStack := by
    intro hhost
    have hfallback := hauth.eligible.kind.2
    rw [if_pos hhost] at hfallback
    have hmode' : (p.mode == .hostFallback) = true := hfallback.1
    rw [hmode] at hmode'
    cases hmode'
  obtain ⟨r, hr, hmatch, hsupports, hadmits⟩ :=
    supports_of_eligible hauth.eligible hkind (hsame ▸ hrequired)
  have hr : s.lookupCapability d.id p.cls = some r := hr
  unfold ExactMatch
  rw [← hcls, ← hid]
  exact ⟨hsupports, hadmits, exactlyCapable_iff hauth.foundTopology hmem hr hmatch⟩

/-- What a registration requires and what a request adds. -/
private theorem supports_requirement {u : FabricState} {request : PlacementRequest} :
    s.Supports device cls (u.requirement request) ↔
      s.Supports device cls (u.functionSemantics request.function) ∧
        s.Supports device cls request.required := by
  unfold requirement functionSemantics
  cases u.functions.find? request.function with
  | none =>
      have hempty : s.Supports device cls {} := by
        intro r _
        exact SemanticsMask.empty_isSubsetOf _
      exact ⟨fun h ↦ ⟨hempty, h⟩, fun h ↦ h.2⟩
  | some f => exact supports_unite

end FabricState

variable {c : FabricConfig} {m : Impl} {st : Step} {r : AssignmentRecord} {rule : PolicyRule}
  {request : PlacementRequest}

/-- A placement creates exact matches only. -/
theorem Step.Creates.exactMatch (hcreates : st.Creates c m r)
    (hop : st.op.placed m.state = some request) (hmode : r.mode = .offloaded)
    (hrule : m.state.ruleFor request.cls = some rule) (hrequired : rule.requireCapability = true) :
    m.state.ExactMatch r.device request rule (st.now 2) := by
  obtain ⟨p, options, auth, t, i, ha, rfl⟩ := hcreates.authorized (Op.places_of_placed hop)
  obtain ⟨rfl, cancelled, planned, h, hd, rfl⟩ := Op.placed_authorization hop ha.asked
  obtain ⟨hcls, -, heffective, hadmits, -⟩ := plan_exactMatch_iff h hd hmode hrule hrequired
  obtain ⟨hsupports, -, hiff⟩ :=
    authorize_exactMatch_iff ha.checked hmode hcls hrule hrequired
  rw [heffective] at hsupports
  exact hiff.mpr ⟨hsupports, hadmits⟩

/-- A plan creates exact matches as far as its record covers what is registered and required by
policy when it is applied. -/
theorem Step.Creates.exactMatch_plan_iff {planned : PlanResult} {options : ApplyOptions}
    {s : FabricState} {cancelled : Bool} {now : Micros} (hcreates : st.Creates c m r)
    (hop : st.op = .applyPlan planned options)
    (hplanned : s.planLocked c.bounds request cancelled now = .ok planned)
    (hd : planned.decision ≠ .refuse) (hmode : r.mode = .offloaded)
    (hrule : m.state.ruleFor request.cls = some rule)
    (hrequired : rule.requireCapability = true) :
    m.state.ExactMatch r.device request rule (st.now 0) ↔
      m.state.Supports r.device request.cls
          ((m.state.functionSemantics request.function).unite rule.required) ∧
        (m.state.functions.find? request.function = none →
          m.state.Admits r.device request.cls request.requiredVersion) := by
  obtain ⟨p, options', auth, t, i, ha, rfl⟩ := hcreates.authorized (by rw [hop]; rfl)
  obtain ⟨hasked, hchecked⟩ := ha
  rw [hop] at hasked
  cases hasked
  obtain ⟨_, e, d, hplanning, -, -, hplan, -, -⟩ := planLocked_ok hplanned hd
  rw [hplanning.context] at hplan
  have hfunction : planned.plan.function = request.function := by rw [hplan]; rfl
  have heffective : planned.plan.effectiveRequirement =
      (s.requirement request).unite e.rule.required := by rw [hplan]; rfl
  obtain ⟨hsupports, hadmits, hiff⟩ := authorize_exactMatch_iff hchecked hmode
    (by rw [hplan]; rfl) hrule hrequired
  rw [heffective, supports_unite, supports_requirement] at hsupports
  refine hiff.trans ?_
  rw [supports_unite, supports_requirement, supports_unite]
  unfold authorizedFunction at hadmits
  simp only [hfunction] at hadmits
  unfold requiredVersion
  -- a registration gives the version that the authorization matched
  cases hregistered : m.state.functions.find? request.function with
  | none =>
      constructor
      · rintro ⟨⟨⟨hfunction, -⟩, hpolicy⟩, hversion⟩
        exact ⟨⟨hfunction, hpolicy⟩, fun _ ↦ hversion⟩
      · rintro ⟨⟨hfunction, hpolicy⟩, hversion⟩
        exact ⟨⟨⟨hfunction, hsupports.1.2⟩, hpolicy⟩, hversion rfl⟩
  | some f =>
      simp only [hregistered] at hadmits
      constructor
      · rintro ⟨⟨⟨hfunction, -⟩, hpolicy⟩, -⟩
        exact ⟨⟨hfunction, hpolicy⟩, fun h ↦ by cases h⟩
      · rintro ⟨⟨hfunction, hpolicy⟩, -⟩
        exact ⟨⟨⟨hfunction, hsupports.1.2⟩, hpolicy⟩, hadmits⟩

/-- **Exact capability matching.** An accepted plan with an offloaded target is matched exactly
as far as its record supports what the policy requires; a placement creates offloaded assignments
of exact matches only; and a plan applied later creates them as far as the record covers the
registration and the policy of that time, and the version of a request without registration. -/
theorem exact_capability_matching (c : FabricConfig) (m : Impl) (request : PlacementRequest)
    (rule : PolicyRule) (hrule : m.state.ruleFor request.cls = some rule)
    (hrequired : rule.requireCapability = true) :
    (∀ (cancelled : Bool) (now : Micros) (planned : PlanResult),
        m.state.planLocked c.bounds request cancelled now = .ok planned →
        planned.decision ≠ .refuse → planned.plan.mode = .offloaded →
        (m.state.ExactMatch planned.plan.device request rule now ↔
          m.state.Supports planned.plan.device request.cls rule.required)) ∧
      (∀ (st : Step) (r : AssignmentRecord), st.op.placed m.state = some request →
        st.Creates c m r → r.mode = .offloaded →
        m.state.ExactMatch r.device request rule (st.now 2)) ∧
      ∀ (st : Step) (r : AssignmentRecord) (planned : PlanResult) (options : ApplyOptions)
        (s : FabricState) (cancelled : Bool) (now : Micros), st.op = .applyPlan planned options →
        s.planLocked c.bounds request cancelled now = .ok planned →
        planned.decision ≠ .refuse → st.Creates c m r → r.mode = .offloaded →
        (m.state.ExactMatch r.device request rule (st.now 0) ↔
          m.state.Supports r.device request.cls
              ((m.state.functionSemantics request.function).unite rule.required) ∧
            (m.state.functions.find? request.function = none →
              m.state.Admits r.device request.cls request.requiredVersion)) := by
  refine ⟨fun _ _ _ h hd hmode ↦ (plan_exactMatch_iff h hd hmode hrule hrequired).2.2.2.2,
    fun _ _ hop hcreates hmode ↦ hcreates.exactMatch hop hmode hrule hrequired,
    fun _ _ _ _ _ _ _ hop hplanned hd hcreates hmode ↦
      hcreates.exactMatch_plan_iff hop hplanned hd hmode hrule hrequired⟩

namespace Sample

/-- A rule that asks for one semantic of a capability. -/
def strictRule : PolicyRule where
  cls := .routeLookup
  required := ⟨1⟩
  allowedKinds := [.dpu]
  requireAuthority := false
  requireFreshObservation := false

/-- What the device supports. -/
def capability (supported : SemanticsMask) : CapabilityReport where
  provenance := ⟨source, 1⟩
  freshness := ⟨1, 1000⟩
  records := [{
    device := device
    incarnation := ⟨1, boot⟩
    cls := .routeLookup
    supported := supported
    unsupported := {}
    unknown := {}
    versionRange := {}
    capacity := ⟨{}⟩
    schema := 1
    generation := 1
    provenance := ⟨source, 1⟩
    freshness := ⟨1, 1000⟩
    revoked := false }]

/-- A run that has topology, capability and the strict policy. -/
def strict (supported : SemanticsMask) : List Step :=
  [step (.start boot), step (.ingestTopology topology),
    step (.ingestCapabilities (capability supported)),
    step (.ingestPolicy { policy with rules := [strictRule] })]

end Sample

/-- The request of the small deployment is planned on its device. -/
private theorem Sample.planned (supported : SemanticsMask)
    (h : (match (run {} (Sample.strict supported)).state.planLocked {} Sample.request false 2 with
      | .ok p => decide (p.decision = .accept ∧ p.plan.mode = .offloaded ∧
          p.plan.device = Sample.device)
      | .error _ => false) = true) :
    ∃ planned, (run {} (Sample.strict supported)).state.planLocked {} Sample.request false 2 =
        .ok planned ∧ planned.decision = .accept ∧ planned.plan.mode = .offloaded ∧
        planned.plan.device = Sample.device := by
  cases hplan : (run {} (Sample.strict supported)).state.planLocked {} Sample.request false 2 with
  | error e =>
      rw [hplan] at h
      cases h
  | ok planned =>
      rw [hplan] at h
      exact ⟨planned, rfl, of_decide_eq_true h⟩

/-- The device supports the semantic: the plan is an exact match, and so is what it creates. -/
theorem exact_capability_matching_strict :
    let m := run {} (Sample.strict ⟨1⟩)
    let st := Sample.step (.apply Sample.request {})
    (∃ planned, m.state.planLocked {} Sample.request false 2 = .ok planned ∧
        m.state.ExactMatch planned.plan.device Sample.request Sample.strictRule 2) ∧
      ∃ r, st.Creates {} m r ∧ m.state.ExactMatch r.device Sample.request Sample.strictRule 2 := by
  intro m st
  have hrule : m.state.ruleFor Sample.request.cls = some Sample.strictRule := by decide +kernel
  obtain ⟨hplan, hcreates, -⟩ := exact_capability_matching {} m Sample.request Sample.strictRule
    hrule rfl
  constructor
  · obtain ⟨planned, h, hd, hmode, hdevice⟩ := Sample.planned ⟨1⟩ (by decide +kernel)
    have hsupports : ∀ r ∈ m.state.lookupCapability Sample.device .routeLookup,
        Sample.strictRule.required.isSubsetOf r.supported = true := by decide +kernel
    refine ⟨planned, h, (hplan false 2 planned h (by rw [hd]; decide) hmode).mpr ?_⟩
    rw [hdevice]
    exact hsupports
  · have hnew : (st.next {} m).state.assignments.values.any (fun r ↦
        decide (m.state.assignments.find? r.id = none ∧ r.state.holdsAuthority = true ∧
          r.mode = .offloaded)) = true := by decide +kernel
    obtain ⟨r, hmem, hr⟩ := List.any_eq_true.mp hnew
    obtain ⟨hfresh, hholds, hmode⟩ := of_decide_eq_true hr
    have hcreated : st.Creates {} m r := ⟨Table.mem_values.mp hmem, by simp [hfresh], hholds⟩
    exact ⟨r, hcreated, hcreates st r rfl hcreated hmode⟩

/-- The device lacks the semantic that the policy requires, and the plan is accepted. -/
theorem plan_overlooks_policy_requirement :
    let s := (run {} (Sample.strict {})).state
    ∃ planned, s.planLocked {} Sample.request false 2 = .ok planned ∧
      planned.decision = .accept ∧ planned.plan.mode = .offloaded ∧
      s.ruleFor Sample.request.cls = some Sample.strictRule ∧
      Sample.strictRule.requireCapability = true ∧
      ¬ s.ExactMatch planned.plan.device Sample.request Sample.strictRule 2 := by
  intro s
  obtain ⟨planned, h, hd, hmode, hdevice⟩ := Sample.planned {} (by decide +kernel)
  have hrule : s.ruleFor Sample.request.cls = some Sample.strictRule := by decide +kernel
  have hlacks : (s.lookupCapability Sample.device .routeLookup).any (fun r ↦
      !Sample.strictRule.required.isSubsetOf r.supported) = true := by decide +kernel
  refine ⟨planned, h, hd, hmode, hrule, rfl, ?_⟩
  rw [hdevice]
  rintro ⟨_, _, r, -, -, -, hr, -, -, -, -, hsupported⟩
  have hr : s.lookupCapability Sample.device .routeLookup = some r := hr
  rw [hr, Option.any_some, Bool.not_eq_true'] at hlacks
  have hpolicy := (SemanticsMask.unite_isSubsetOf.mp hsupported).2
  rw [hlacks] at hpolicy
  cases hpolicy

end OffloadFabric
