import OffloadFabric.Fabric.Answers
import OffloadFabric.Fabric.Currency
import OffloadFabric.Fabric.Verdicts

/-!
# Conservative restart

What of the evidence accepted before a start is current after it
(`src/fabric.cpp:1001-1005,2265-2273`, the rule of `docs/architecture.md:131-134`), and which
operations rest on current evidence only.
-/

namespace OffloadFabric

open Lib Lib.Fallible FabricM FabricState

/-! ## What an operation requires -/

/-- What a decision on a target requires of the evidence beyond topology and policy. -/
structure Needs where
  cls : FunctionClass
  device : DeviceId
  capability : Bool
  observation : Bool
  grant : AuthorityId

namespace FabricState

variable (s : FabricState)

/-- What the authorization of a plan needs under the rule of its class. -/
def planNeeds (p : AssignmentPlan) (rule : PolicyRule) (now : Micros) : Needs where
  cls := p.cls
  device := p.device
  capability := rule.requireCapability && p.mode == .offloaded
  observation := rule.requireFreshObservation
  grant := if rule.requireAuthority then s.planGrant p rule now else .empty

/-- What the re-authorization of an assignment needs under the rule of its class. -/
def renewalNeeds (r : AssignmentRecord) (rule : PolicyRule) (grant : AuthorityId) : Needs where
  cls := r.cls
  device := r.device
  capability := decide (Gen.isSet r.binding.capability)
  observation := rule.requireFreshObservation
  grant := grant

/-- The evidence that a decision requires. -/
def Requires (n : Needs) : Evidence → Prop
  | .topology t => s.topology = some t
  | .policy p => s.policy = some p
  | .capability r => n.capability = true ∧ s.lookupCapability n.device n.cls = some r
  | .observation o => n.observation = true ∧ s.observations.find? n.device = some o
  | .grant g => n.grant ≠ .empty ∧ s.authority.find? n.grant = some g

/-- All the evidence that a decision requires is current. -/
def RestsOnCurrent (n : Needs) : Prop := ∀ e, s.Requires n e → s.Current e

/-- The grant of a name is current, if there is one. -/
def NamedCurrent (id : AuthorityId) : Prop :=
  id ≠ .empty → ∀ g, s.authority.find? id = some g → s.Current (.grant g)

/-- Topology and policy are current. -/
def SnapshotsCurrent : Prop :=
  (∀ t, s.topology = some t → s.Current (.topology t)) ∧
    ∀ p, s.policy = some p → s.Current (.policy p)

variable {s}

theorem restsOnCurrent_iff {n : Needs} : s.RestsOnCurrent n ↔
    s.SnapshotsCurrent ∧
      (n.capability = true →
        ∀ r, s.lookupCapability n.device n.cls = some r → s.Current (.capability r)) ∧
      (n.observation = true →
        ∀ o, s.observations.find? n.device = some o → s.Current (.observation o)) ∧
      s.NamedCurrent n.grant := by
  constructor
  · intro h
    exact ⟨⟨fun t ht ↦ h (.topology t) ht, fun p hp ↦ h (.policy p) hp⟩,
      fun hneed r hr ↦ h (.capability r) ⟨hneed, hr⟩,
      fun hneed o ho ↦ h (.observation o) ⟨hneed, ho⟩, fun hne g hg ↦ h (.grant g) ⟨hne, hg⟩⟩
  · rintro ⟨hsnapshots, hcapability, hobservation, hgrant⟩ e he
    cases e with
    | topology t => exact hsnapshots.1 t he
    | policy p => exact hsnapshots.2 p he
    | capability r => exact hcapability he.1 r he.2
    | observation o => exact hobservation he.1 o he.2
    | grant g => exact hgrant he.1 g he.2

/-- An eligible candidate rests on current records of its device where the rule asks for them. -/
private theorem current_of_eligible {c : EvaluationContext} {d : DeviceRecord}
    (h : c.Eligible d) :
    (c.rule.requireCapability = true → d.kind ≠ .hostStack →
      ∀ r, c.state.lookupCapability d.id c.request.cls = some r →
        c.state.Current (.capability r)) ∧
    (c.rule.requireFreshObservation = true →
      ∀ o, c.state.observations.find? d.id = some o → c.state.Current (.observation o)) := by
  constructor
  · intro hrequired hkind r hr
    obtain ⟨r', hr', hmatched, -⟩ := h.exists_capability hkind hrequired
    rw [hr, Option.some.injEq] at hr'
    exact hr' ▸ hmatched.current
  · intro hrequired o ho
    obtain ⟨o', ho', -, -, hcurrent, -⟩ := h.observed hrequired
    rw [ho, Option.some.injEq] at ho'
    exact ho' ▸ hcurrent

/-- A plan that is not refused rests on current evidence only. -/
theorem restsOnCurrent_of_plan {b : Bounds} {request : PlacementRequest} {cancelled : Bool}
    {now : Micros} {planned : PlanResult} {rule : PolicyRule}
    (h : s.planLocked b request cancelled now = .ok planned) (hd : planned.decision ≠ .refuse)
    (hrule : s.ruleFor planned.plan.cls = some rule) :
    s.RestsOnCurrent (s.planNeeds planned.plan rule now) := by
  obtain ⟨t, c, d, hplanning, -, heligible, hplan, hnamed, -⟩ := planLocked_ok h hd
  obtain ⟨hcapability, hobservation⟩ := current_of_eligible heligible
  have hevidence := hplanning.evidence
  have hcls : planned.plan.cls = request.cls := by rw [hplan, hplanning.context]; rfl
  rw [hcls, ruleFor_eq_some hevidence.policy hplanning.rule, Option.some.injEq] at hrule
  rw [restsOnCurrent_iff, hplan]
  rw [hplanning.context, hrule] at hcapability hobservation hnamed ⊢
  refine ⟨⟨fun t' ht ↦ ?_, fun p hp ↦ ?_⟩, fun hneed ↦ ?_, hobservation, fun hne g hg ↦ ?_⟩
  · rw [hevidence.topology, Option.some.injEq] at ht
    exact ht ▸ hevidence.topologyCurrent
  · rw [hevidence.policy, Option.some.injEq] at hp
    exact hp ▸ hevidence.policyCurrent
  · obtain ⟨hrequired, hmode⟩ := Bool.and_eq_true_iff.mp hneed
    refine hcapability hrequired fun hkind ↦ ?_
    change ((if d.kind = .hostStack then ExecutionMode.hostFallback else .offloaded) ==
      .offloaded) = true at hmode
    rw [if_pos hkind] at hmode
    cases hmode
  · have hrequired : rule.requireAuthority = true := by
      by_contra hno
      exact hne (if_neg hno)
    have hset := hnamed hrequired
    have hgrant := signedDraft_grant hrequired hset
    change s.authority.find? (if rule.requireAuthority = true then _ else _) = some g at hg
    rw [if_pos hrequired, planGrant_of_named hset] at hg
    obtain ⟨g', hg', hcurrent, -⟩ := hgrant
    rw [show g = g' from Option.some.inj (hg.symm.trans hg')]
    exact hcurrent

private theorem namedCurrent_of_planNeeds {p : AssignmentPlan} {rule : PolicyRule} {now : Micros}
    (h : s.NamedCurrent (s.planNeeds p rule now).grant) (hrequired : rule.requireAuthority = true) :
    s.NamedCurrent p.authority := by
  intro hne
  unfold planNeeds NamedCurrent at h
  simp only [if_pos hrequired, planGrant_of_named hne] at h
  exact h hne

/-- An authorized plan rests on current evidence as far as topology, policy and the grant it
names are current. -/
theorem restsOnCurrent_authorized_iff {b : Bounds} {p : AssignmentPlan} {allowReplacement : Bool}
    {now : Micros} {auth : Authorization} {rule : PolicyRule}
    (h : s.authorizeChecks b p allowReplacement now = .ok auth)
    (hrule : s.ruleFor p.cls = some rule) :
    s.RestsOnCurrent (s.planNeeds p rule now) ↔
      s.SnapshotsCurrent ∧ (rule.requireAuthority = true → s.NamedCurrent p.authority) := by
  obtain ⟨⟨t, policy, d, rule', ha⟩, -⟩ := authorizeChecks_eq_ok.mp h
  obtain rfl : rule = rule' := (ha.ruleFor rule).mp hrule
  obtain ⟨hcapability, hobservation⟩ := current_of_eligible ha.eligible
  obtain ⟨-, hdevice⟩ := lowerBound_eq_some ha.foundDevice
  rw [hdevice] at hcapability hobservation
  rw [restsOnCurrent_iff]
  refine and_congr_right fun _ ↦ ⟨fun hneeds ↦ namedCurrent_of_planNeeds hneeds.2.2, fun hnamed ↦
    ⟨fun hneed ↦ ?_, hobservation, fun hne g hg ↦ ?_⟩⟩
  · obtain ⟨hrequired, hmode⟩ := Bool.and_eq_true_iff.mp hneed
    refine hcapability hrequired fun hkind ↦ ?_
    have hfallback := ha.eligible.kind.2
    rw [if_pos hkind] at hfallback
    have hfallback : (p.mode == .hostFallback) = true := hfallback.1
    rw [eq_of_beq hmode] at hfallback
    cases hfallback
  · have hrequired : rule.requireAuthority = true := by
      by_contra hno
      exact hne (if_neg hno)
    change s.authority.find? (if rule.requireAuthority = true then _ else _) = some g at hg
    rw [if_pos hrequired] at hg
    by_cases hset : p.authority ≠ .empty
    · rw [planGrant_of_named hset] at hg
      exact hnamed hrequired hset g hg
    · obtain ⟨-, g', hg', -, hcurrent⟩ := ha.grant hrequired
      rw [show g = g' from Option.some.inj (hg.symm.trans hg')]
      exact hcurrent fun hset' ↦ hset fun hnone ↦ hset' (by rw [hnone]; rfl)

/-- A re-authorization rests on current evidence as far as the grant it names is current. -/
theorem restsOnCurrent_renewal_iff {request : ReauthorizeRequest} {r : AssignmentRecord}
    {now : Micros} {validity : ReasonCode} {rule : PolicyRule}
    (h : s.reauthorizationChecks request r now = .ok validity)
    (hrule : s.ruleFor r.cls = some rule) :
    s.RestsOnCurrent (renewalNeeds r rule request.authority) ↔
      s.NamedCurrent request.authority := by
  obtain ⟨g, hg⟩ := reauthorizationChecks_eq_ok.mp h
  obtain ⟨htarget, ⟨p, rule', hp, hobserved⟩, hcapability⟩ :=
    targetUsable (hg.target.symm ▸ hg.usable)
  rw [ruleFor_eq_some hp.policy hp.found, Option.some.injEq] at hrule
  rw [hrule] at hobserved
  rw [restsOnCurrent_iff]
  refine ⟨fun h ↦ h.2.2.2, fun hnamed ↦
    ⟨⟨fun t ht ↦ ?_, fun p' hp' ↦ ?_⟩, fun hneed r' hr' ↦ ?_, fun hneed o ho ↦ ?_, hnamed⟩⟩
  · obtain ⟨t', d, hvalid⟩ := htarget
    rw [hvalid.topology, Option.some.injEq] at ht
    exact ht ▸ hvalid.current
  · rw [hp.policy, Option.some.injEq] at hp'
    exact hp' ▸ hp.current
  · obtain ⟨cap, hvalid⟩ := hcapability (of_decide_eq_true hneed)
    have heq : cap = r' := Option.some.inj (hvalid.found.symm.trans hr')
    exact heq ▸ hvalid.current
  · obtain ⟨o', ho', hcurrent⟩ := hobserved hneed
    have heq : o' = o := Option.some.inj (ho'.symm.trans ho)
    exact heq ▸ hcurrent

end FabricState

/-- What an operation that places or re-authorizes needs in a state; one that finds authority
needs nothing. -/
def Op.needs (c : FabricConfig) (now : ClockReadings) (s : FabricState) (op : Op) :
    Option Needs :=
  match op with
  | .reauthorize request =>
      ((s.assignments.find? request.assignment).filter (!·.state.holdsAuthority)).bind fun r ↦
        (s.ruleFor r.cls).map fun rule ↦ renewalNeeds r rule request.authority
  | _ =>
      (op.authorization c now s).bind fun asked ↦
        (s.ruleFor asked.1.cls).map fun rule ↦ s.planNeeds asked.1 rule asked.2.2

/-- The currency that an operation leaves unchecked: a plan that is applied later that of
topology, policy and its grant, a re-authorization that of its grant. -/
def Op.Guarded (s : FabricState) : Op → Prop
  | .applyPlan planned _ => s.SnapshotsCurrent ∧ ∀ rule, s.ruleFor planned.plan.cls = some rule →
      rule.requireAuthority = true → s.NamedCurrent planned.plan.authority
  | .reauthorize request => s.NamedCurrent request.authority
  | _ => True

section

variable {c : FabricConfig} {m : Impl} {st : Step} {r : AssignmentRecord}

/-- A placement that is answered for the first time passed the checks of the plan it asks to
authorize. -/
private theorem Step.checked {p : AssignmentPlan} {options : ApplyOptions} {t : Micros}
    (hop : st.op.places = true) (hanswer : (st.exec c m).1 = .ok (some r))
    (hmiss : st.op.Missed c m.state)
    (hasked : st.op.authorization c st.now m.state = some (p, options, t)) :
    ∃ auth, m.state.authorizeChecks c.bounds p options.allowReplacement t = .ok auth := by
  obtain ⟨p', options', auth, t', _, _, ha, -⟩ := Step.created hop hanswer hmiss
  have hsame := ha.asked.symm.trans hasked
  cases hsame
  exact ⟨auth, ha.checked⟩

/-- A placement rests on current evidence. -/
theorem Step.restsOnCurrent_placed {request : PlacementRequest} {p : AssignmentPlan}
    {options : ApplyOptions} {t : Micros} {rule : PolicyRule}
    (hplaced : st.op.placed m.state = some request)
    (hanswer : (st.exec c m).1 = .ok (some r)) (hmiss : st.op.Missed c m.state)
    (hasked : st.op.authorization c st.now m.state = some (p, options, t))
    (hrule : m.state.ruleFor p.cls = some rule) :
    m.state.RestsOnCurrent (m.state.planNeeds p rule t) := by
  obtain ⟨auth, hauth⟩ := st.checked (Op.places_of_placed hplaced) hanswer hmiss hasked
  obtain ⟨-, cancelled, planned, h, hd, rfl⟩ := Op.placed_authorization hplaced hasked
  obtain ⟨hsnapshots, -, -, hgrant⟩ :=
    FabricState.restsOnCurrent_iff.mp (restsOnCurrent_of_plan h hd hrule)
  exact (restsOnCurrent_authorized_iff hauth hrule).mpr
    ⟨hsnapshots, namedCurrent_of_planNeeds hgrant⟩

/-- An operation that succeeds rests on current evidence exactly as far as it is guarded. -/
theorem Step.restsOnCurrent_iff {n : Needs} (hanswer : (st.exec c m).1 = .ok (some r))
    (hmiss : st.op.Missed c m.state) (hneeds : st.op.needs c st.now m.state = some n) :
    m.state.RestsOnCurrent n ↔ st.op.Guarded m.state := by
  have hplaced : ∀ request, st.op.placed m.state = some request →
      (st.op.authorization c st.now m.state).bind (fun asked ↦
        (m.state.ruleFor asked.1.cls).map fun rule ↦ m.state.planNeeds asked.1 rule asked.2.2) =
          some n → m.state.RestsOnCurrent n := by
    intro request hplaced hneeds
    obtain ⟨⟨p, options, t⟩, hasked, hneeds⟩ := Option.bind_eq_some_iff.mp hneeds
    obtain ⟨rule, hrule, rfl⟩ := Option.map_eq_some_iff.mp hneeds
    exact st.restsOnCurrent_placed hplaced hanswer hmiss hasked hrule
  cases hop : st.op with
  | apply request options =>
      rw [hop] at hneeds hplaced
      exact iff_of_true (hplaced request rfl hneeds) trivial
  | replace request =>
      rw [hop] at hneeds hplaced
      refine iff_of_true ?_ trivial
      cases hfind : m.state.assignments.find? request.current with
      | none =>
          simp only [Op.needs, Op.authorization, hfind, Option.bind_none, reduceCtorEq] at hneeds
      | some current =>
          refine hplaced (Fabric.replacementPlacement request current) ?_ hneeds
          simp only [Op.placed, hfind, Option.map_some]
  | applyPlan planned options =>
      rw [hop] at hneeds
      simp only [Op.needs, Op.authorization, Option.bind_some, Option.map_eq_some_iff] at hneeds
      obtain ⟨rule, hrule, rfl⟩ := hneeds
      have hasked : st.op.authorization c st.now m.state =
          some (planned.plan, Fabric.planOptions options planned, st.now 0) := by rw [hop]; rfl
      obtain ⟨auth, hauth⟩ := st.checked (by rw [hop]; rfl) hanswer hmiss hasked
      refine (restsOnCurrent_authorized_iff hauth hrule).trans (and_congr_right fun _ ↦ ?_)
      simp only [hrule, Option.some.injEq, forall_eq']
  | reauthorize request =>
      rw [hop] at hneeds
      obtain ⟨r₀, hr₀, hneeds⟩ := Option.bind_eq_some_iff.mp hneeds
      obtain ⟨hfind, hfree⟩ := Option.filter_eq_some_iff.mp hr₀
      obtain ⟨rule, hrule, rfl⟩ := Option.map_eq_some_iff.mp hneeds
      obtain ⟨validity, hcheck⟩ :=
        Step.reauthorized hop hanswer hmiss hfind (by simpa using hfree)
      exact restsOnCurrent_renewal_iff hcheck hrule
  | _ =>
      rw [hop] at hneeds
      cases hneeds

end

/-- **Conservative restart.** After a start, the only evidence that is current is a capability
record ahead of the mark of its source, and there is none where every capability report was
attributed. What the marks cover at the start is not current in any state that the runtime runs
in afterwards: no plan and no operation that is guarded requires it. -/
theorem conservative_restart (c : FabricConfig) (hstore : c.hasStore = true)
    (before after : List Step) (st : Step) (boot : BootId) (answer : Option AssignmentRecord)
    (hop : st.op = .start boot) (hok : (st.exec c (run c before)).1 = .ok answer) :
    let s := (run c (before ++ [st])).state
    let m := run c (before ++ st :: after)
    (∀ e, s.Holds e → (s.Current e ↔ s.Ahead e) ∧ (¬ s.Covered e → ∃ r, e = .capability r)) ∧
      ((∀ x ∈ before, x.op.Attributed) → ∀ e, s.Holds e → s.Covered e) ∧
      (m.running = true → ∀ e, s.Covered e → ¬ m.state.Current e ∧
        (∀ request cancelled now planned rule,
          m.state.planLocked c.bounds request cancelled now = .ok planned →
          planned.decision ≠ .refuse → m.state.ruleFor planned.plan.cls = some rule →
          ¬ m.state.Requires (m.state.planNeeds planned.plan rule now) e) ∧
        ∀ (x : Step) r n, (x.exec c m).1 = .ok (some r) → x.op.Missed c m.state →
          x.op.needs c x.now m.state = some n → x.op.Guarded m.state →
          ¬ m.state.Requires n e) ∧
      ∀ (x : Step) r n, (x.exec c m).1 = .ok (some r) → x.op.Missed c m.state →
        x.op.needs c x.now m.state = some n →
        (m.state.RestsOnCurrent n ↔ x.op.Guarded m.state) := by
  intro s m
  have hrun : (run c (before ++ [st])).running = true := by
    rw [run_append]
    exact Step.start_running hop hok
  have hrefloored : s.Refloored := by
    have hrun' := hrun
    rw [run_append] at hrun'
    have h := (st.start_next c (run c before) hop).refloored hstore (Step.start_ok hop hok) hrun'
    rwa [← run_append] at h
  have hcovered : ∀ e, s.Holds e → ¬ s.Covered e → ∃ r, e = .capability r := by
    intro e hheld hnot
    have hmarked := (keeps_marked hstore (before ++ [st])).held hrun e
    cases e with
    | capability r => exact ⟨r, rfl⟩
    | observation o =>
        have hheld : s.observations.find? o.device = some o := hheld
        rw [hrefloored.observations] at hheld
        cases hheld
    | _ => exact absurd (hmarked trivial hheld) hnot
  have hcurrent : m.running = true → ∀ e, s.Covered e → ¬ m.state.Current e := by
    intro hrun' e he
    have heq : before ++ st :: after = (before ++ [st]) ++ after := by simp
    have hm : m = run c ((before ++ [st]) ++ after) := by rw [← heq]
    rw [hm] at hrun' ⊢
    have hkeeps : (run c (before ++ [st])).Keeps c (·.Covered e) :=
      .of_running (Impl.Durable.run hstore _) (durableProperty_covered e) hrun he
    exact (floored_run hstore _ after hkeeps (fun _ ↦ he.floored hrefloored) hrun').not_current
  refine ⟨fun e he ↦ ⟨hrefloored.current_iff e, hcovered e he⟩, fun hattributed e he ↦ ?_,
    fun hrun' e he ↦ ⟨hcurrent hrun' e he, fun request cancelled now planned rule h hd hrule hreq ↦
      hcurrent hrun' e he (restsOnCurrent_of_plan h hd hrule e hreq),
      fun x r n hanswer hmiss hneeds hguarded hreq ↦ hcurrent hrun' e he
        ((x.restsOnCurrent_iff hanswer hmiss hneeds).mpr hguarded e hreq)⟩,
    fun x r n hanswer hmiss hneeds ↦ x.restsOnCurrent_iff hanswer hmiss hneeds⟩
  by_contra hnot
  obtain ⟨r, rfl⟩ := hcovered e he hnot
  refine hnot ((keeps_capabilitiesMarked hstore (before ++ [st]) fun x hx ↦ ?_).held hrun r he)
  rcases List.mem_append.mp hx with hx | hx
  · exact hattributed x hx
  · rw [List.mem_singleton.mp hx, hop]
    trivial

/-- The topology of the small deployment is not current after a crash and a start. -/
theorem conservative_restart_crashed :
    let before := Sample.ready ++ [Sample.step .crash]
    let s := (run {} (before ++ [Sample.step (.start Sample.boot)])).state
    s.Holds (.topology Sample.topology) ∧ ¬ s.Current (.topology Sample.topology) := by
  intro before s
  have hheld : s.Holds (.topology Sample.topology) := by
    have htopology : s.topology = some Sample.topology := by decide +kernel
    exact htopology
  have hrun : (run {} (before ++ [Sample.step (.start Sample.boot)])).running = true := by
    decide +kernel
  obtain ⟨-, hattributed, hlater, -⟩ := conservative_restart {} rfl before []
    (Sample.step (.start Sample.boot)) Sample.boot none rfl (by decide +kernel)
  refine ⟨hheld, (hlater hrun _ (hattributed ?_ _ hheld)).1⟩
  intro x hx
  simp only [before, Sample.ready, List.cons_append, List.nil_append, List.mem_cons,
    List.not_mem_nil, or_false] at hx
  rcases hx with rfl | rfl | rfl | rfl <;> exact trivial

namespace Sample

/-- A record of the device that is ahead of the report it stands in. -/
def record : CapabilityRecord where
  device := device
  incarnation := ⟨1, boot⟩
  cls := .routeLookup
  supported := {}
  unsupported := {}
  unknown := {}
  versionRange := {}
  capacity := ⟨{}⟩
  schema := 1
  generation := 1
  provenance := ⟨source, 2⟩
  freshness := ⟨1, 1000⟩
  revoked := false

/-- A run that has the record, and loses the process. -/
def crashedAhead : List Step := ready ++
  [step (.ingestCapabilities ⟨⟨source, 1⟩, ⟨1, 1000⟩, [record]⟩), step .crash]

end Sample

/-- A capability record accepted before a start is current after it. -/
theorem capability_outlasts_restart :
    let m := run {} Sample.crashedAhead
    let st := Sample.step (.start Sample.boot)
    (st.exec {} m).1 = .ok none ∧ (st.next {} m).running = true ∧
      (st.next {} m).state.lookupCapability Sample.device .routeLookup = some Sample.record ∧
      (st.next {} m).state.evidenceCurrent Sample.record.provenance.source .capability
        Sample.record.provenance.sequence = true := by
  decide +kernel

end OffloadFabric
