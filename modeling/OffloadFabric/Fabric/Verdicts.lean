import OffloadFabric.Fabric.Evidence

/-!
# What a valid assignment rests on

`assignment_validity` of `src/fabric.cpp:2016-2147` read as a conjunction: an assignment is valid
exactly when its device, the policy, its capability, the liveness of its device and its grant
all are.
-/

namespace OffloadFabric

open Lib

namespace FabricState

variable (s : FabricState) (r : AssignmentRecord) (now : Micros)

/-! ## The conditions -/

/-- The device of an assignment stands in current topology as the assignment has it. -/
structure ValidTarget (t : TopologySnapshot) (d : DeviceRecord) : Prop where
  topology : s.topology = some t
  current : s.evidenceCurrent t.provenance.source .topology t.provenance.sequence = true
  fresh : ¬ t.freshness.isExpired now
  generation : ¬ (Gen.isSet r.binding.topology ∧ t.generation < r.binding.topology)
  device : t.findDevice r.device = some d
  live : d.decommissioned = false
  incarnation : d.incarnation = r.incarnation

/-- Current policy has a rule for the class of an assignment and allows its kind. -/
structure ValidPolicy (p : PolicySnapshot) (rule : PolicyRule) : Prop where
  policy : s.policy = some p
  current : s.evidenceCurrent p.provenance.source .policy p.provenance.sequence = true
  fresh : ¬ p.freshness.isExpired now
  found : p.findRule r.cls = some rule
  kind : r.kind ∈ rule.allowedKinds
  fallback : r.kind = .hostStack → rule.allowHostFallback = true

/-- The capability record of an assignment bound to one is current and still matches. -/
structure ValidCapability (bindingGenerations : Bool) (cap : CapabilityRecord) : Prop where
  found : s.lookupCapability r.device r.cls = some cap
  generation : bindingGenerations = true → cap.generation = r.binding.capability
  current : s.evidenceCurrent cap.provenance.source .capability cap.provenance.sequence = true
  fresh : ¬ cap.freshness.isExpired now
  fits : ∀ f, s.functions.find? r.function = some f →
    cap.Matches f r.incarnation now

/-- The device of an assignment was observed alive since the last start. -/
def ValidLiveness : Prop :=
  ∃ o, s.observations.find? r.device = some o ∧ o.device.isSet ∧ o.incarnation = r.incarnation ∧
    s.evidenceCurrent o.provenance.source .observation o.provenance.sequence = true ∧
    ¬ o.freshness.isExpired now ∧ o.liveness = .alive

/-- A grant is current and still places the assignment. -/
structure ValidGrant (g : AuthorityGrant) : Prop where
  found : s.authority.find? r.authority = some g
  current : s.evidenceCurrent g.provenance.source .authority g.provenance.sequence = true
  places : authorityRecheck g ⟨.place, r.cls, r.kind, r.host, r.scopeId, s.recheckSemantics r,
    s.policyGeneration⟩ now = .ok

/-- The conditions of a valid target. -/
structure TargetValid (bindingGenerations : Bool) : Prop where
  target : ∃ t d, s.ValidTarget r now t d
  policy : ∃ p rule, s.ValidPolicy r now p rule ∧
    (rule.requireFreshObservation = true → s.ValidLiveness r now)
  capability : Gen.isSet r.binding.capability →
    ∃ cap, s.ValidCapability r now bindingGenerations cap

/-- The conditions of a valid assignment. -/
structure Valid : Prop where
  target : s.TargetValid r now true
  policy : Gen.isSet r.binding.policy → s.policyGeneration = r.binding.policy
  fence : r.fence.isSet → r.fence.epoch = s.epoch.counter
  grant : r.authority.isSet → ∃ g, s.ValidGrant r now g

variable {s r now}

/-! ## The checks -/

private theorem verdict_eq_ok {checks : Except ReasonCode Unit}
    (h : Fails (· ≠ .ok) checks) : verdict checks = .ok ↔ checks = .ok () := by
  cases checks with
  | ok u => exact ⟨fun _ ↦ rfl, fun _ ↦ rfl⟩
  | error e =>
      constructor
      · intro he
        exact absurd he (h e rfl)
      · intro he
        cases he

private theorem topologyChecks_eq_ok :
    s.topologyChecks r now = .ok () ↔ ∃ t d, s.ValidTarget r now t d := by
  unfold topologyChecks
  simp only [require_bind_eq_ok, present_bind_eq_ok, require_eq_ok]
  constructor
  · rintro ⟨t, ht, hcurrent, hfresh, hgeneration, d, hd, hlive, hincarnation⟩
    exact ⟨t, d, ht, hcurrent, hfresh, hgeneration, hd, hlive, hincarnation⟩
  · rintro ⟨t, d, h⟩
    exact ⟨t, h.topology, h.current, h.fresh, h.generation, d, h.device, h.live, h.incarnation⟩

private theorem policyChecks_eq_ok {rule : PolicyRule} :
    s.policyChecks r now = .ok rule ↔ ∃ p, s.ValidPolicy r now p rule := by
  unfold policyChecks
  simp only [require_bind_eq_ok, present_bind_eq_ok]
  constructor
  · rintro ⟨p, hp, hcurrent, hfresh, rule', hrule, hkind, hfallback, h⟩
    cases Except.ok.inj h
    refine ⟨p, hp, hcurrent, hfresh, hrule, hkind, fun hhost ↦ ?_⟩
    by_contra hno
    exact hfallback ⟨hhost, by simpa using hno⟩
  · rintro ⟨p, h⟩
    refine ⟨p, h.policy, h.current, h.fresh, rule, h.found, h.kind, fun hno ↦ ?_, rfl⟩
    have hallowed := h.fallback hno.1
    rw [hno.2] at hallowed
    cases hallowed

private theorem functionStep_eq_ok (f : Option FunctionDescriptor) (cap : CapabilityRecord)
    (incarnation : IncarnationId) (now : Micros) :
    (match f with
      | some f => require ((matchCapability f cap incarnation now).eligible = true)
          (matchCapability f cap incarnation now).reason
      | none => pure ()) = .ok () ↔ ∀ g, f = some g → cap.Matches g incarnation now := by
  cases f with
  | none => exact ⟨fun _ g hg ↦ (by cases hg), fun _ ↦ rfl⟩
  | some g => simp only [require_eq_ok, Option.some.injEq, forall_eq', matchCapability_eligible]

private theorem capabilityChecks_eq_ok {bindingGenerations : Bool} :
    s.capabilityChecks r now bindingGenerations = .ok () ↔
      (Gen.isSet r.binding.capability →
        ∃ cap, s.ValidCapability r now bindingGenerations cap) := by
  unfold capabilityChecks
  by_cases hset : Gen.isSet r.binding.capability
  · simp only [hset, if_true, true_imp_iff, require_bind_eq_ok, present_bind_eq_ok]
    refine exists_congr fun cap ↦ ?_
    have hmatch := functionStep_eq_ok (s.functions.find? r.function) cap r.incarnation now
    constructor
    · rintro ⟨hfound, hgeneration, hcurrent, hfresh, h⟩
      refine ⟨hfound, fun hb ↦ ?_, hcurrent, hfresh, hmatch.mp h⟩
      by_contra hne
      exact hgeneration ⟨hb, hne⟩
    · intro h
      exact ⟨h.found, fun hno ↦ hno.2 (h.generation hno.1), h.current, h.fresh,
        hmatch.mpr h.fits⟩
  · simp only [hset, if_false, false_imp_iff, pure, Except.pure]

private theorem livenessChecks_eq_ok :
    s.livenessChecks r now = .ok () ↔ s.ValidLiveness r now := by
  unfold livenessChecks ValidLiveness
  simp only [present_bind_eq_ok, require_bind_eq_ok]
  refine exists_congr fun o ↦ and_congr_right fun _ ↦ and_congr_right fun _ ↦
    and_congr_right fun _ ↦ and_congr_right fun _ ↦ and_congr_right fun _ ↦ ?_
  cases o.liveness with
  | alive => simp only [pure, Except.pure]
  | _ => simp only [throw, throwThe, MonadExceptOf.throw, reduceCtorEq]

private theorem grantChecks_eq_ok :
    s.grantChecks r now = .ok () ↔ (r.authority.isSet → ∃ g, s.ValidGrant r now g) := by
  unfold grantChecks
  by_cases hset : r.authority.isSet
  · simp only [hset, if_true, true_imp_iff, present_bind_eq_ok, require_bind_eq_ok,
      require_eq_ok]
    refine exists_congr fun g ↦ ?_
    constructor
    · rintro ⟨hfound, hcurrent, hplaces⟩
      exact ⟨hfound, hcurrent, hplaces⟩
    · rintro ⟨hfound, hcurrent, hplaces⟩
      exact ⟨hfound, hcurrent, hplaces⟩
  · simp only [hset, if_false, false_imp_iff, pure, Except.pure]

private theorem targetChecks_eq_ok {bindingGenerations : Bool} :
    s.targetChecks r now bindingGenerations = .ok () ↔
      s.TargetValid r now bindingGenerations := by
  unfold targetChecks
  constructor
  · intro h
    obtain ⟨_, htarget, h⟩ := bind_eq_ok.mp h
    obtain ⟨rule, hpolicy, h⟩ := bind_eq_ok.mp h
    obtain ⟨_, hcapability, h⟩ := bind_eq_ok.mp h
    obtain ⟨p, hp⟩ := policyChecks_eq_ok.mp hpolicy
    refine ⟨topologyChecks_eq_ok.mp htarget, ⟨p, rule, hp, fun hfresh ↦ ?_⟩,
      capabilityChecks_eq_ok.mp hcapability⟩
    rw [if_pos hfresh] at h
    exact livenessChecks_eq_ok.mp h
  · rintro ⟨htarget, ⟨p, rule, hp, hliveness⟩, hcapability⟩
    refine bind_eq_ok.mpr ⟨(), topologyChecks_eq_ok.mpr htarget, bind_eq_ok.mpr ⟨rule,
      policyChecks_eq_ok.mpr ⟨p, hp⟩, bind_eq_ok.mpr ⟨(),
        capabilityChecks_eq_ok.mpr hcapability, ?_⟩⟩⟩
    split
    · next hfresh => exact livenessChecks_eq_ok.mpr (hliveness hfresh)
    · rfl

/-! ## No check fails without a reason -/

/-- A verdict of a check: a reason, and no cancellation. -/
private abbrev Failure (reason : ReasonCode) : Prop := reason ≠ .ok ∧ reason ≠ .cancelled

/-- A verdict that a re-authorization does not overlook, `src/fabric.cpp:3928-3933`. -/
private abbrev Refusal (reason : ReasonCode) : Prop :=
  Failure reason ∧ reason ≠ .livenessDegraded

private theorem fails_topologyChecks : Fails Refusal (s.topologyChecks r now) := by
  unfold topologyChecks
  exact .bind (.present (by decide)) fun _ _ ↦ .bind (.require fun _ ↦ by decide) fun _ _ ↦
    .bind (.require fun _ ↦ by decide) fun _ _ ↦ .bind (.require fun _ ↦ by decide) fun _ _ ↦
      .bind (.present (by decide)) fun _ _ ↦ .bind (.require fun _ ↦ by decide) fun _ _ ↦
        .require fun _ ↦ by decide

private theorem fails_policyChecks : Fails Refusal (s.policyChecks r now) := by
  unfold policyChecks
  exact .bind (.present (by decide)) fun _ _ ↦ .bind (.require fun _ ↦ by decide) fun _ _ ↦
    .bind (.require fun _ ↦ by decide) fun _ _ ↦ .bind (.present (by decide)) fun _ _ ↦
      .bind (.require fun _ ↦ by decide) fun _ _ ↦ .bind (.require fun _ ↦ by decide) fun _ _ ↦
        .ok _

private theorem fails_capabilityChecks (bindingGenerations : Bool) :
    Fails Refusal (s.capabilityChecks r now bindingGenerations) := by
  unfold capabilityChecks
  split
  · refine .bind (.present (by decide)) fun cap _ ↦ .bind (.require fun _ ↦ by decide) fun _ _ ↦
      .bind (.require fun _ ↦ by decide) fun _ _ ↦ .bind (.require fun _ ↦ by decide) fun _ _ ↦ ?_
    split
    · exact .require fun hnot ↦ ⟨⟨fun hok ↦ hnot (eligible_of_reason hok),
        (matchCapability_reason_plain _ _ _ _).1⟩, matchCapability_reason_ne _ _ _ _⟩
    · exact .ok _
  · exact .ok _

private theorem fails_livenessChecks : Fails Failure (s.livenessChecks r now) := by
  unfold livenessChecks
  refine .bind (.present (by decide)) fun o _ ↦ .bind (.require fun _ ↦ by decide) fun _ _ ↦
    .bind (.require fun _ ↦ by decide) fun _ _ ↦ .bind (.require fun _ ↦ by decide) fun _ _ ↦
      .bind (.require fun _ ↦ by decide) fun _ _ ↦ ?_
  cases o.liveness with
  | alive => exact .ok _
  | _ => exact .error (by decide)

private theorem fails_targetChecks (bindingGenerations : Bool) :
    Fails Failure (s.targetChecks r now bindingGenerations) := by
  unfold targetChecks
  refine .bind (fails_topologyChecks.mono fun _ h ↦ h.1) fun _ _ ↦
    .bind (fails_policyChecks.mono fun _ h ↦ h.1) fun _ _ ↦
      .bind ((fails_capabilityChecks _).mono fun _ h ↦ h.1) fun _ _ ↦ ?_
  split
  · exact fails_livenessChecks
  · exact .ok _

private theorem fails_bindingChecks : Fails (· ≠ .ok) (s.bindingChecks r now) := by
  unfold bindingChecks grantChecks
  refine .bind (.require fun _ ↦ by decide) fun _ _ ↦ .bind (.require fun _ ↦ by decide)
    fun _ _ ↦ ?_
  split
  · exact .bind (.present (by decide)) fun _ _ ↦ .bind (.require fun _ ↦ by decide) fun _ _ ↦
      .require fun hnot ↦ hnot
  · exact .ok _

/-! ## The verdicts -/

theorem assignmentTargetValidity_eq_ok {bindingGenerations : Bool} :
    s.assignmentTargetValidity r now bindingGenerations = .ok ↔
      s.TargetValid r now bindingGenerations :=
  (verdict_eq_ok ((fails_targetChecks _).mono fun _ h ↦ h.1)).trans targetChecks_eq_ok

theorem assignmentTargetValidity_uncancelled (s : FabricState) (r : AssignmentRecord)
    (now : Micros) (bindingGenerations : Bool) :
    s.assignmentTargetValidity r now bindingGenerations ≠ .cancelled := by
  unfold assignmentTargetValidity
  cases hchecks : s.targetChecks r now bindingGenerations with
  | ok u => exact ReasonCode.noConfusion
  | error e => exact (fails_targetChecks _ e hchecks).2

private theorem usable_bind {α : Type} {x : Except ReasonCode α}
    {f : α → Except ReasonCode Unit} (hx : Fails Refusal x) (h : ¬ Refusal (verdict (x >>= f))) :
    ∃ a, x = .ok a ∧ ¬ Refusal (verdict (f a)) := by
  cases x with
  | error e => exact absurd (hx e rfl) h
  | ok a => exact ⟨a, rfl, h⟩

/-- What a target rests on that is valid but for a device observed degraded. -/
structure TargetUsable (s : FabricState) (r : AssignmentRecord) (now : Micros)
    (bindingGenerations : Bool) : Prop where
  target : ∃ t d, s.ValidTarget r now t d
  policy : ∃ p rule, s.ValidPolicy r now p rule ∧ (rule.requireFreshObservation = true →
    ∃ o, s.observations.find? r.device = some o ∧
      s.evidenceCurrent o.provenance.source .observation o.provenance.sequence = true)
  capability : Gen.isSet r.binding.capability →
    ∃ cap, s.ValidCapability r now bindingGenerations cap

/-- A target that a re-authorization accepts rests on current evidence. -/
theorem targetUsable {bindingGenerations : Bool}
    (h : s.assignmentTargetValidity r now bindingGenerations = .ok ∨
      s.assignmentTargetValidity r now bindingGenerations = .livenessDegraded) :
    s.TargetUsable r now bindingGenerations := by
  have husable : ¬ Refusal (verdict (s.targetChecks r now bindingGenerations)) := by
    rintro ⟨hfailure, hdegraded⟩
    exact h.elim hfailure.1 hdegraded
  unfold targetChecks at husable
  obtain ⟨_, htarget, h₁⟩ := usable_bind fails_topologyChecks husable
  obtain ⟨rule, hpolicy, h₂⟩ := usable_bind fails_policyChecks h₁
  obtain ⟨_, hcapability, h₃⟩ := usable_bind (fails_capabilityChecks _) h₂
  obtain ⟨p, hp⟩ := policyChecks_eq_ok.mp hpolicy
  refine ⟨topologyChecks_eq_ok.mp htarget, ⟨p, rule, hp, fun hfresh ↦ ?_⟩,
    capabilityChecks_eq_ok.mp hcapability⟩
  rw [if_pos hfresh] at h₃
  unfold livenessChecks at h₃
  obtain ⟨o, ho, h₄⟩ := usable_bind (.present (by decide)) h₃
  obtain ⟨_, -, h₅⟩ := usable_bind (.require fun _ ↦ by decide) h₄
  obtain ⟨_, -, h₆⟩ := usable_bind (.require fun _ ↦ by decide) h₅
  obtain ⟨_, hcurrent, -⟩ := usable_bind (.require fun _ ↦ by decide) h₆
  exact ⟨o, present_eq_ok.mp ho, require_eq_ok.mp hcurrent⟩

private theorem bindingChecks_eq_ok : s.bindingChecks r now = .ok () ↔
    (Gen.isSet r.binding.policy → s.policyGeneration = r.binding.policy) ∧
      (r.fence.isSet → r.fence.epoch = s.epoch.counter) ∧
      (r.authority.isSet → ∃ g, s.ValidGrant r now g) := by
  unfold bindingChecks
  rw [require_bind_eq_ok, require_bind_eq_ok, grantChecks_eq_ok, not_and_not_right,
    not_and_not_right]

/-- An assignment is valid exactly under its conditions. -/
theorem assignmentValidity_eq_ok : s.assignmentValidity r now = .ok ↔ s.Valid r now := by
  unfold assignmentValidity
  rw [verdict_eq_ok (.bind ((fails_targetChecks _).mono fun _ h ↦ h.1) fun _ _ ↦
    fails_bindingChecks), bind_eq_ok]
  simp only [bindingChecks_eq_ok]
  constructor
  · rintro ⟨_, htarget, hpolicy, hfence, hgrant⟩
    exact ⟨targetChecks_eq_ok.mp htarget, hpolicy, hfence, hgrant⟩
  · rintro ⟨htarget, hpolicy, hfence, hgrant⟩
    exact ⟨(), targetChecks_eq_ok.mpr htarget, hpolicy, hfence, hgrant⟩

end FabricState

end OffloadFabric
