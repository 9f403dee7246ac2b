import OffloadFabric.Fabric.Answers

/-!
# Applied plans

What an applied plan's record says against the evidence the plan was applied on:
`src/fabric.cpp:3336-3542,3706-3750` check the incarnation, the scope, the generations and the
eligibility of the device again and copy the rest from the plan.
-/

namespace OffloadFabric

open Lib Lib.Fallible FabricState

namespace FabricState

/-- The current evidence on a device and a class of functions. -/
structure Finds (s : FabricState) (device : DeviceId) (cls : FunctionClass) (d : DeviceRecord)
    (rule : PolicyRule) : Prop where
  device : ∃ t, s.topology = some t ∧ t.findDevice device = some d
  rule : ∃ policy, s.policy = some policy ∧ policy.findRule cls = some rule

/-- A record that agrees with its device, the rule of its class, the grant it names and the
function registered for it, when it was matched against the given semantics. -/
structure Agrees (s : FabricState) (matched : SemanticsMask) (now : Micros)
    (r : AssignmentRecord) (d : DeviceRecord) (rule : PolicyRule) : Prop where
  host : r.host = d.host
  kind : r.kind = d.kind
  incarnation : r.incarnation = d.incarnation
  mode : r.mode = .hostFallback ↔ d.kind = .hostStack
  exclusiveKey : r.exclusiveKey = rule.exclusiveKey
  authority : rule.requireAuthority = true → r.authority ≠ .empty ∧
    ∃ g, s.authority.find? r.authority = some g ∧ g.Admits ⟨.place, r.cls, d.kind, d.host,
      r.scopeId, matched.unite rule.required, s.policyGeneration⟩ now
  semantics : ∀ f, s.functions.find? r.function = some f → f.required.isSubsetOf matched = true

/-- What the checks of an application leave to the plan. -/
structure Faithful (s : FabricState) (p : AssignmentPlan) (d : DeviceRecord)
    (rule : PolicyRule) : Prop where
  host : p.host = d.host
  kind : p.kind = d.kind
  mode : p.mode = .hostFallback → d.kind = .hostStack
  exclusiveKey : p.exclusiveKey = rule.exclusiveKey
  authority : rule.requireAuthority = true → p.authority ≠ .empty
  semantics : ∀ f, s.functions.find? p.function = some f →
    f.required.isSubsetOf p.effectiveRequirement = true

end FabricState

section

variable {c : FabricConfig} {s : FabricState} {p : AssignmentPlan} {auth : Authorization}
  {options : ApplyOptions} {i : Identity} {now : Micros} {allowReplacement : Bool}
  {t : TopologySnapshot} {policy : PolicySnapshot} {d : DeviceRecord} {rule : PolicyRule}
  {replacing : AssignmentId}

/-- A host stack is placed on as a fallback only. -/
private theorem FabricState.Authorizes.fallback
    (ha : s.Authorizes c.bounds p allowReplacement now t policy d rule replacing)
    (hd : d.kind = .hostStack) : p.mode = .hostFallback := by
  have hkind := ha.eligible.kind.2
  rw [if_pos hd] at hkind
  exact beq_iff_eq.mp hkind.1

/-- The grant that a plan names admits it. -/
private theorem FabricState.Authorizes.named
    (ha : s.Authorizes c.bounds p allowReplacement now t policy d rule replacing)
    (hrequired : rule.requireAuthority = true) (hne : p.authority ≠ .empty) :
    ∃ g, s.authority.find? p.authority = some g ∧ g.Admits (s.planIntent p rule) now := by
  obtain ⟨-, g, hg, hadmits, -⟩ := ha.grant hrequired
  rw [planGrant_of_named hne] at hg
  exact ⟨g, hg, hadmits⟩

/-- The record of a plan agrees with the evidence exactly when the plan is faithful to it. -/
private theorem FabricState.Authorizes.agrees_iff
    (ha : s.Authorizes c.bounds p allowReplacement now t policy d rule replacing)
    (hscope : auth.scope = p.scopeId) :
    s.Agrees p.effectiveRequirement now
        (newAssignment c s p auth options.requestId i.id i.lease i.attempt i.fence now) d rule ↔
      s.Faithful p d rule := by
  constructor
  · intro h
    exact ⟨h.host, h.kind, h.mode.mp, h.exclusiveKey, fun hrequired ↦ (h.authority hrequired).1,
      h.semantics⟩
  · intro h
    refine ⟨h.host, h.kind, ha.incarnation.symm, ⟨h.mode, ha.fallback⟩, h.exclusiveKey,
      fun hrequired ↦ ?_, h.semantics⟩
    have hne := h.authority hrequired
    obtain ⟨g, hg, hadmits⟩ := ha.named hrequired hne
    unfold planIntent at hadmits
    rw [h.host, h.kind, ← hscope] at hadmits
    exact ⟨hne, g, hg, hadmits⟩

end

/-- **An applied plan is trusted in part.** The record that `apply_plan` creates agrees with the
current evidence exactly when the plan says of itself what is not checked again: host, kind,
fallback, exclusive key, the grant and the semantics of the function. -/
theorem applied_plan_agrees_iff (c : FabricConfig) (m : Impl) (st : Step) {planned : PlanResult}
    {options : ApplyOptions} (hop : st.op = .applyPlan planned options) {r : AssignmentRecord}
    (hanswer : (st.exec c m).1 = .ok (some r)) (hmiss : st.op.Missed c m.state) :
    ∃ d rule, m.state.Finds r.device r.cls d rule ∧
      (m.state.Agrees planned.plan.effectiveRequirement (st.now 0) r d rule ↔
        m.state.Faithful planned.plan d rule) := by
  have hanswered := st.answered (by rw [hop]; rfl) hanswer
  generalize st.op = op at hop hmiss hanswered
  subst hop
  cases hanswered with
  | recalled h =>
      obtain ⟨k, entry, hk, hentry, -⟩ := h.exists_entry
      rw [hmiss k hk] at hentry
      cases hentry
  | created _ ha hi =>
      cases ha.asked
      obtain ⟨⟨t, policy, d, rule, hauth⟩, heq⟩ := authorizeChecks_eq_ok.mp ha.checked
      have hscope := congrArg Authorization.scope heq
      refine ⟨d, rule, ⟨⟨t, hauth.foundTopology, hauth.foundDevice⟩,
        ⟨policy, hauth.foundPolicy, hauth.foundRule⟩⟩, ?_⟩
      exact hauth.agrees_iff hscope

namespace Sample

/-- A plan with its digest. -/
def signed (p : AssignmentPlan) : PlanResult where
  decision := .accept
  plan := { p with
    planDigest := match p.digest {} with
      | .ok digest => digest
      | .error _ => .zero }

/-- The plan of the placement of the small deployment. -/
def plan : AssignmentPlan where
  requestId := .empty
  function := function
  cls := .routeLookup
  scope := { kind := .global }
  scopeId := .empty
  exclusivity := .exclusive
  exclusiveKey := .perClass
  mode := .offloaded
  device := device
  host := host
  kind := .dpu
  incarnation := ⟨1, boot⟩
  demand := {}
  binding := { topology := 1, policy := 1, assignment := 1 }
  authority := .empty
  effectiveRequirement := {}
  planDigest := .zero

/-- That plan for a host the device is not on. -/
def forgedPlan : AssignmentPlan := { plan with host := ⟨ascii "elsewhere", .inr (by decide)⟩ }

end Sample

/-- The plan and the forged plan are applied, in a state with the evidence of the small
deployment. -/
private def Sample.Applies (m : Impl) : Prop :=
  (Sample.step (.applyPlan (Sample.signed Sample.plan) {})).answersWith {} m (fun r ↦
      decide (r.device = Sample.device ∧ r.cls = .routeLookup)) = true ∧
    (Sample.step (.applyPlan (Sample.signed Sample.forgedPlan) {})).answersWith {} m (fun r ↦
      decide (r.device = Sample.device ∧ r.host ≠ Sample.host)) = true ∧
    m.state.functions.find? Sample.function = none ∧
    m.state.topology = some Sample.topology ∧ m.state.policy = some Sample.policy

private instance (m : Impl) : Decidable (Sample.Applies m) := inferInstanceAs (Decidable (_ ∧ _))

private theorem Sample.applies : Sample.Applies (run {} Sample.ready) := by decide +kernel

/-- The record of the faithful plan agrees with the evidence. -/
theorem applied_plan_agrees_ready : ∃ r d rule,
    ((Sample.step (.applyPlan (Sample.signed Sample.plan) {})).exec {} (run {} Sample.ready)).1 =
        .ok (some r) ∧
      (run {} Sample.ready).state.Finds r.device r.cls d rule ∧
      (run {} Sample.ready).state.Agrees {} 2 r d rule := by
  have happlies := Sample.applies
  generalize run {} Sample.ready = m at happlies ⊢
  obtain ⟨hanswers, -, hfunctions, htopology, hpolicy⟩ := happlies
  obtain ⟨r, hanswer, hr⟩ := Step.exists_answer hanswers
  obtain ⟨hdevice, hcls⟩ := of_decide_eq_true hr
  have hmiss : (Op.applyPlan (Sample.signed Sample.plan) {}).Missed {} m.state := by
    intro k hk
    cases hk
    rfl
  obtain ⟨d, rule, hfinds, hiff⟩ := applied_plan_agrees_iff {} m _ rfl hanswer hmiss
  refine ⟨r, d, rule, hanswer, hfinds, hiff.mpr ?_⟩
  obtain ⟨t, ht, hd⟩ := hfinds.device
  obtain ⟨policy, hp, hrule⟩ := hfinds.rule
  rw [htopology, Option.some.injEq] at ht
  rw [hpolicy, Option.some.injEq] at hp
  rw [← ht, hdevice] at hd
  rw [← hp, hcls] at hrule
  cases hd
  cases hrule
  refine ⟨rfl, rfl, (fun hmode ↦ by cases hmode), rfl, (fun h ↦ by cases h), fun f hf ↦ ?_⟩
  have hnone : m.state.functions.find? Sample.function = some f := hf
  rw [hfunctions] at hnone
  cases hnone

/-- A plan for a host that the device is not on is applied, and its record says so. -/
theorem forged_plan_applied : ∃ r d rule,
    ((Sample.step (.applyPlan (Sample.signed Sample.forgedPlan) {})).exec {}
        (run {} Sample.ready)).1 = .ok (some r) ∧
      (run {} Sample.ready).state.Finds r.device .routeLookup d rule ∧ r.host ≠ d.host := by
  have happlies := Sample.applies
  generalize run {} Sample.ready = m at happlies ⊢
  obtain ⟨-, hanswers, -, htopology, hpolicy⟩ := happlies
  obtain ⟨r, hanswer, hr⟩ := Step.exists_answer hanswers
  obtain ⟨hdevice, hhost⟩ := of_decide_eq_true hr
  obtain ⟨d, hd, hon⟩ : ∃ d, Sample.topology.findDevice Sample.device = some d ∧
      d.host = Sample.host := ⟨_, rfl, rfl⟩
  rw [← hdevice] at hd
  rw [← hon] at hhost
  exact ⟨r, d, _, hanswer, ⟨⟨_, htopology, hd⟩, ⟨_, hpolicy, rfl⟩⟩, hhost⟩

end OffloadFabric
