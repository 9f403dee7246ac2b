import OffloadFabric.Fabric.Answers

/-!
# Authority gates actions

Which grant admits a placement, a replacement, a revocation and a re-authorization, and for what
(`src/fabric.cpp:1318-1339,3460-3479,3788-3806,3906-3927`, the rules of
`docs/architecture.md:71-79`).
-/

namespace OffloadFabric

open Lib Lib.Fallible FabricM FabricState

/-- The ceiling of a grant, if it has one, covers semantics. -/
def AuthorityGrant.Covers (g : AuthorityGrant) (semantics : SemanticsMask) : Prop :=
  g.semanticsCeiling.isEmpty = false → semantics.isSubsetOf g.semanticsCeiling = true

theorem AuthorityGrant.covers_unite {g : AuthorityGrant} {a b : SemanticsMask} :
    g.Covers (a.unite b) ↔ g.Covers a ∧ g.Covers b := by
  unfold Covers
  simp only [SemanticsMask.unite_isSubsetOf]
  exact forall_and

namespace FabricState

variable (s : FabricState)

/-- What an action on an assignment asks a grant for. -/
def intentOn (action : AuthorityAction) (r : AssignmentRecord) (semantics : SemanticsMask) :
    Intent :=
  ⟨action, r.cls, r.kind, r.host, r.scopeId, semantics, s.policyGeneration⟩

/-- The semantics registered for a function, requested of it and required by policy. -/
def fullSemantics (function : FunctionId) (rule : PolicyRule) (requested : SemanticsMask) :
    SemanticsMask :=
  ((s.functionSemantics function).unite requested).unite rule.required

/-- A grant is current evidence. -/
def GrantCurrent (g : AuthorityGrant) : Prop :=
  s.evidenceCurrent g.provenance.source .authority g.provenance.sequence = true

/-- The named grant is current and admits an intent. -/
def AdmittedBy (id : AuthorityId) (i : Intent) (now : Micros) : Prop :=
  id ≠ .empty ∧ ∃ g, s.authority.find? id = some g ∧ s.GrantCurrent g ∧
    authorityAdmits g i now = .ok

variable {s}

/-- A grant that admits an intent admits another action for other semantics as far as it is
current, lists the one and covers the other. -/
private theorem admittedBy_iff {id : AuthorityId} {g : AuthorityGrant} {i : Intent}
    {now : Micros} (hne : id ≠ .empty) (hg : s.authority.find? id = some g)
    (h : g.Admits i now) {action : AuthorityAction} {semantics : SemanticsMask} :
    s.AdmittedBy id { i with action, semantics } now ↔
      s.GrantCurrent g ∧ action ∈ g.actions ∧ g.Covers semantics := by
  constructor
  · rintro ⟨-, g', hg', hcurrent, hadmits⟩
    have heq : g' = g := Option.some.inj (hg'.symm.trans hg)
    rw [heq] at hcurrent hadmits
    exact ⟨hcurrent, h.admits_iff.mp (authorityAdmits_eq_ok.mp hadmits)⟩
  · rintro ⟨hcurrent, hadmits⟩
    exact ⟨hne, g, hg, hcurrent, authorityAdmits_eq_ok.mpr (h.admits_iff.mpr hadmits)⟩

private theorem requirement_eq (request : PlacementRequest) :
    s.requirement request = (s.functionSemantics request.function).unite request.required := by
  unfold requirement functionSemantics
  cases s.functions.find? request.function with
  | none => exact (SemanticsMask.empty_unite _).symm
  | some f => rfl

private theorem isSet_of_ne {id : AuthorityId} (h : id ≠ .empty) : id.isSet :=
  fun hnone ↦ h (Token.ext hnone)

private theorem intentOn_newAssignment {c : FabricConfig} {p : AssignmentPlan}
    {auth : Authorization} {id : RequestId} {i : Identity} {now : Micros}
    (hscope : auth.scope = p.scopeId) (action : AuthorityAction) (rule : PolicyRule)
    (semantics : SemanticsMask) :
    s.intentOn action (newAssignment c s p auth id i.id i.lease i.attempt i.fence now) semantics =
      { s.planIntent p rule with action, semantics } := by
  unfold intentOn planIntent
  rw [← hscope]
  rfl

/-! ## Placements -/

/-- The grant of a placement admits another action on it as far as it lists that. -/
theorem placement_admittedBy_iff {c : FabricConfig} {now : ClockReadings} {op : Op}
    {request : PlacementRequest} {p : AssignmentPlan} {options : ApplyOptions}
    {auth : Authorization} {t : Micros} {id : RequestId} {i : Identity} {rule : PolicyRule}
    (hplaced : op.placed s = some request) (ha : Authorized c now s op p options auth t)
    (hrule : s.ruleFor p.cls = some rule) (hrequired : rule.requireAuthority = true) :
    ∃ g, s.authority.find? p.authority = some g ∧ .place ∈ g.actions ∧ ∀ action,
      s.AdmittedBy p.authority (s.intentOn action
          (newAssignment c s p auth id i.id i.lease i.attempt i.fence t)
          (s.fullSemantics p.function rule request.required)) t ↔ action ∈ g.actions := by
  obtain ⟨-, cancelled, planned, hplanned, hd, rfl⟩ := Op.placed_authorization hplaced ha.asked
  obtain ⟨t₁, e, d₁, hplanning, -, -, hp, hnamed, -⟩ := planLocked_ok hplanned hd
  obtain ⟨⟨_, policy, d, rule', hauth⟩, heq⟩ := authorizeChecks_eq_ok.mp ha.checked
  have hsame : rule = rule' := (hauth.ruleFor rule).mp hrule
  rw [← hsame] at hauth
  have hne : planned.plan.authority ≠ .empty := by
    rw [hp]
    exact hnamed (hplanning.rule_eq hp hauth ▸ hrequired)
  obtain ⟨g, hg, hcurrent, hadmits⟩ :=
    hplanning.grant hp hauth hrequired (isSet_of_ne hne)
  refine ⟨g, hg, hadmits.action, fun action ↦ ?_⟩
  have hscope : auth.scope = planned.plan.scopeId := by rw [heq]
  have hcovers : g.Covers (s.fullSemantics planned.plan.function rule request.required) := by
    have hplan : g.Covers (planned.plan.effectiveRequirement.unite rule.required) :=
      hadmits.ceiling
    rw [hplanning.effectiveRequirement hp hauth, AuthorityGrant.covers_unite,
      requirement_eq] at hplan
    have hfunction : planned.plan.function = request.function := by
      rw [hp, hplanning.context]
      rfl
    unfold fullSemantics
    rw [hfunction]
    exact hplan.1
  rw [intentOn_newAssignment hscope action rule, admittedBy_iff hne hg hadmits]
  exact ⟨fun h ↦ h.2.1, fun h ↦ ⟨hcurrent, h, hcovers⟩⟩

/-- The grant a plan is authorized by admits the placement as far as it is current and covers
what is registered. -/
theorem plan_admittedBy_iff {c : FabricConfig} {p : AssignmentPlan} {allowReplacement : Bool}
    {auth : Authorization} {t : Micros} {id : RequestId} {i : Identity} {rule : PolicyRule}
    (h : s.authorizeChecks c.bounds p allowReplacement t = .ok auth)
    (hrule : s.ruleFor p.cls = some rule) (hrequired : rule.requireAuthority = true) :
    ∃ g, s.authority.find? (s.planGrant p rule t) = some g ∧
      (s.AdmittedBy (s.planGrant p rule t) (s.intentOn .place
          (newAssignment c s p auth id i.id i.lease i.attempt i.fence t)
          (s.fullSemantics p.function rule p.effectiveRequirement)) t ↔
        (p.authority ≠ .empty → s.GrantCurrent g) ∧ g.Covers (s.functionSemantics p.function)) := by
  obtain ⟨⟨_, policy, d, rule', hauth⟩, heq⟩ := authorizeChecks_eq_ok.mp h
  have hsame : rule = rule' := (hauth.ruleFor rule).mp hrule
  rw [← hsame] at hauth
  obtain ⟨hne, g, hg, hadmits, hsearched⟩ := hauth.grant hrequired
  refine ⟨g, hg, ?_⟩
  have hscope : auth.scope = p.scopeId := by rw [heq]
  rw [intentOn_newAssignment hscope .place rule, admittedBy_iff hne hg hadmits]
  have hplan : g.Covers (p.effectiveRequirement.unite rule.required) := hadmits.ceiling
  unfold fullSemantics
  rw [AuthorityGrant.covers_unite] at hplan
  rw [AuthorityGrant.covers_unite, AuthorityGrant.covers_unite]
  constructor
  · rintro ⟨hcurrent, -, ⟨hregistered, -⟩, -⟩
    exact ⟨fun _ ↦ hcurrent, hregistered⟩
  · rintro ⟨hcurrent, hregistered⟩
    refine ⟨?_, hadmits.action, ⟨hregistered, hplan.1⟩, hplan.2⟩
    by_cases hnamed : p.authority = .empty
    · refine hsearched fun hset ↦ ?_
      rw [hnamed] at hset
      exact hset rfl
    · exact hcurrent hnamed

/-! ## Actions on one assignment -/

/-- The grant a revocation names admits it as far as it is current and covers its semantics. -/
theorem revocation_admittedBy_iff {request : RevokeRequest} {r : AssignmentRecord}
    {now : Micros} (h : s.revocationChecks request r now = .ok ())
    (hholds : r.state.holdsAuthority = true) (semantics : SemanticsMask) :
    s.AdmittedBy request.authority (s.intentOn .revoke r semantics) now ↔
      request.authority ≠ .empty ∧ ∀ g, s.authority.find? request.authority = some g →
        s.GrantCurrent g ∧ g.Covers semantics := by
  unfold revocationChecks at h
  by_cases hnamed : request.authority = .empty
  · exact ⟨fun hadmitted ↦ absurd hnamed hadmitted.1, fun hadmitted ↦ absurd hnamed hadmitted.1⟩
  · rw [if_pos ⟨hholds, hnamed⟩, present_bind_eq_ok] at h
    obtain ⟨g, hg, hadmits⟩ := h
    have hadmits := authorityAdmits_eq_ok.mp (require_eq_ok.mp hadmits)
    have hiff : s.AdmittedBy request.authority (s.intentOn .revoke r semantics) now ↔ _ :=
      admittedBy_iff hnamed hg hadmits
    rw [hiff]
    simp only [hg, Option.some.injEq, forall_eq']
    exact ⟨fun ⟨hcurrent, _, hcovers⟩ ↦ ⟨hnamed, hcurrent, hcovers⟩,
      fun ⟨_, hcurrent, hcovers⟩ ↦ ⟨hcurrent, hadmits.action, hcovers⟩⟩

/-- The grant a re-authorization names admits it as far as it is current and covers its
semantics. -/
theorem reauthorization_admittedBy_iff {request : ReauthorizeRequest} {r : AssignmentRecord}
    {now : Micros} {validity : ReasonCode}
    (h : s.reauthorizationChecks request r now = .ok validity) (semantics : SemanticsMask) :
    s.AdmittedBy request.authority (s.intentOn .reauthorize r semantics) now ↔
      ∀ g, s.authority.find? request.authority = some g →
        s.GrantCurrent g ∧ g.Covers semantics := by
  obtain ⟨g, hre⟩ := reauthorizationChecks_eq_ok.mp h
  have hadmits := authorityAdmits_eq_ok.mp hre.admits
  have hiff : s.AdmittedBy request.authority (s.intentOn .reauthorize r semantics) now ↔ _ :=
    admittedBy_iff hre.named hre.grant hadmits
  rw [hiff]
  simp only [hre.grant, Option.some.injEq, forall_eq']
  exact ⟨fun ⟨hcurrent, _, hcovers⟩ ↦ ⟨hcurrent, hcovers⟩,
    fun ⟨hcurrent, hcovers⟩ ↦ ⟨hcurrent, hadmits.action, hcovers⟩⟩

end FabricState

/-- **Authority gates actions.** Where the rule of its class asks for a grant, a placement is
admitted by the grant it names; a replacement as far as that grant lists it; a plan as far as its
grant is current and covers what is registered; a revocation and a re-authorization as far as
they name a grant that is current and covers their semantics. -/
theorem authority_gates_actions (c : FabricConfig) (m : Impl) (st : Step) (r : AssignmentRecord)
    (hanswer : (st.exec c m).1 = .ok (some r)) (hmiss : st.op.Missed c m.state)
    (rule : PolicyRule) (hrequired : rule.requireAuthority = true) :
    (∀ request options, st.op = .apply request options → m.state.ruleFor r.cls = some rule →
        m.state.AdmittedBy r.authority (m.state.intentOn .place r
          (m.state.fullSemantics r.function rule request.required)) (st.now 2)) ∧
      (∀ planned options, st.op = .applyPlan planned options →
        m.state.ruleFor r.cls = some rule →
        ∃ g, m.state.authority.find? (m.state.planGrant planned.plan rule (st.now 0)) = some g ∧
          (m.state.AdmittedBy (m.state.planGrant planned.plan rule (st.now 0))
              (m.state.intentOn .place r (m.state.fullSemantics r.function rule
                planned.plan.effectiveRequirement)) (st.now 0) ↔
            (planned.plan.authority ≠ .empty → m.state.GrantCurrent g) ∧
              g.Covers (m.state.functionSemantics planned.plan.function))) ∧
      (∀ replacement request p options now, st.op = .replace replacement →
        st.op.placed m.state = some request →
        st.op.authorization c st.now m.state = some (p, options, now) →
        m.state.ruleFor r.cls = some rule →
        ∃ g, m.state.authority.find? p.authority = some g ∧ r.authority = p.authority ∧
          (m.state.AdmittedBy r.authority (m.state.intentOn .replace r
              (m.state.fullSemantics r.function rule request.required)) now ↔
            .replace ∈ g.actions)) ∧
      (∀ request r₀ requested, st.op = .revoke request →
        m.state.assignments.find? request.assignment = some r₀ →
        r₀.state.holdsAuthority = true → m.state.ruleFor r₀.cls = some rule →
        (m.state.AdmittedBy request.authority (m.state.intentOn .revoke r₀
            (m.state.fullSemantics r₀.function rule requested)) (st.now 0) ↔
          request.authority ≠ .empty ∧
            ∀ g, m.state.authority.find? request.authority = some g → m.state.GrantCurrent g ∧
              g.Covers (m.state.fullSemantics r₀.function rule requested))) ∧
      ∀ request r₀ requested, st.op = .reauthorize request →
        m.state.assignments.find? request.assignment = some r₀ →
        r₀.state.holdsAuthority = false → m.state.ruleFor r₀.cls = some rule →
        (m.state.AdmittedBy request.authority (m.state.intentOn .reauthorize r₀
            (m.state.fullSemantics r₀.function rule requested)) (st.now 0) ↔
          ∀ g, m.state.authority.find? request.authority = some g → m.state.GrantCurrent g ∧
            g.Covers (m.state.fullSemantics r₀.function rule requested)) := by
  refine ⟨fun request options hop hrule ↦ ?_, fun planned options hop hrule ↦ ?_,
    fun replacement request p options now hop hplaced hasked hrule ↦ ?_,
    fun request r₀ requested hop hfind hholds _ ↦ ?_,
    fun request r₀ requested hop hfind hfree _ ↦ ?_⟩
  · obtain ⟨p, _, _, t, i, _, ha, -, rfl⟩ := Step.created (by rw [hop]; rfl) hanswer hmiss
    have hplaced : st.op.placed m.state = some request := by rw [hop]; rfl
    obtain ⟨rfl, -⟩ := Op.placed_authorization hplaced ha.asked
    obtain ⟨g, -, hplaces, hiff⟩ := placement_admittedBy_iff hplaced ha hrule hrequired
    exact (hiff .place).mpr hplaces
  · obtain ⟨p, _, _, t, i, _, ha, -, rfl⟩ := Step.created (by rw [hop]; rfl) hanswer hmiss
    obtain ⟨hasked, hchecked⟩ := ha
    rw [hop] at hasked
    cases hasked
    exact plan_admittedBy_iff hchecked hrule hrequired
  · obtain ⟨p', _, _, t, i, _, ha, -, rfl⟩ := Step.created (by rw [hop]; rfl) hanswer hmiss
    have hsame := hasked.symm.trans ha.asked
    cases hsame
    obtain ⟨g, hg, -, hiff⟩ := placement_admittedBy_iff hplaced ha hrule hrequired
    exact ⟨g, hg, rfl, hiff .replace⟩
  · rcases Step.revoked hop hanswer with hrecalled | ⟨-, r₁, hr₁, hchecked⟩
    · exact absurd hmiss hrecalled.not_missed
    · rw [hfind, Option.some.injEq] at hr₁
      rw [← hr₁] at hchecked
      refine revocation_admittedBy_iff (hchecked.resolve_left fun hrevoked ↦ ?_) hholds _
      rw [hrevoked] at hholds
      cases hholds
  · obtain ⟨validity, hcheck⟩ := Step.reauthorized hop hanswer hmiss hfind hfree
    exact reauthorization_admittedBy_iff hcheck _

namespace Sample

def grantId : AuthorityId := ⟨ascii "g", .inr (by decide)⟩

/-- A grant that places on the device, and does nothing else. -/
def grant : AuthorityGrant where
  id := grantId
  policyGeneration := 1
  classes := [.routeLookup]
  kinds := [.dpu]
  actions := [.place]
  issuedAt := 1
  expiresAt := 1000
  provenance := ⟨source, 1⟩
  freshness := ⟨1, 1000⟩

/-- A rule that asks for a grant only. -/
def guardedRule : PolicyRule where
  cls := .routeLookup
  allowedKinds := [.dpu]
  requireFreshObservation := false
  requireCapability := false

/-- A run that has topology, a policy that asks for grants and a grant. -/
def guarded : List Step :=
  [step (.start boot), step (.ingestTopology topology),
    step (.ingestPolicy { policy with rules := [guardedRule] }), step (.grantAuthority grant)]

/-- That run with the function placed. -/
def guardedPlaced : List Step := guarded ++ [step (.apply request {})]

/-- A revocation that names no grant. -/
def revocation : RevokeRequest where
  assignment := first

end Sample

private theorem Sample.places_guarded : (Sample.step (.apply Sample.request {})).answersWith {}
    (run {} Sample.guarded) (fun r ↦ decide (r.cls = .routeLookup)) = true := by decide +kernel

/-- The placement of the small deployment is admitted by its grant. -/
theorem authority_gates_actions_placed :
    let m := run {} Sample.guarded
    ∃ r, ((Sample.step (.apply Sample.request {})).exec {} m).1 = .ok (some r) ∧
      m.state.AdmittedBy r.authority (m.state.intentOn .place r
        (m.state.fullSemantics r.function Sample.guardedRule {})) 2 := by
  intro m
  obtain ⟨r, hanswer, hcls⟩ := Step.exists_answer Sample.places_guarded
  have hmiss : (Sample.step (.apply Sample.request {})).op.Missed {} m.state := by
    intro k hk
    cases hk
    decide +kernel
  have hrule : m.state.ruleFor .routeLookup = some Sample.guardedRule := by decide +kernel
  rw [← of_decide_eq_true hcls] at hrule
  exact ⟨r, hanswer, (authority_gates_actions {} m _ r hanswer hmiss Sample.guardedRule rfl).1
    Sample.request {} rfl hrule⟩

/-- The revocation is answered in a state that holds the assignment, asks for grants and has
none that revokes. -/
private def Sample.Revokes (m : Impl) : Prop :=
  (Sample.step (.revoke Sample.revocation)).answersWith {} m (fun _ ↦ true) = true ∧
    (m.state.assignments.find? Sample.revocation.assignment).any (·.state.holdsAuthority) = true ∧
    m.state.findIdempotency .empty = none ∧
    m.state.ruleFor .routeLookup = some Sample.guardedRule ∧
    ∀ g ∈ m.state.authority.values, .revoke ∉ g.actions

private instance (m : Impl) : Decidable (Sample.Revokes m) :=
  inferInstanceAs (Decidable (_ ∧ _))

private theorem Sample.revokes : Sample.Revokes (run {} Sample.guardedPlaced) := by
  decide +kernel

/-- A holder is revoked without a grant, and no grant there is admits it. -/
theorem revocation_without_grant : ∃ r r₀,
    ((Sample.step (.revoke Sample.revocation)).exec {} (run {} Sample.guardedPlaced)).1 =
        .ok (some r) ∧
      (Op.revoke Sample.revocation).Missed {} (run {} Sample.guardedPlaced).state ∧
      (run {} Sample.guardedPlaced).state.assignments.find? Sample.revocation.assignment =
        some r₀ ∧
      r₀.state.holdsAuthority = true ∧
      (run {} Sample.guardedPlaced).state.ruleFor .routeLookup = some Sample.guardedRule ∧
      Sample.guardedRule.requireAuthority = true ∧
      ∀ g ∈ (run {} Sample.guardedPlaced).state.authority.values, ∀ semantics now,
        authorityAdmits g ((run {} Sample.guardedPlaced).state.intentOn .revoke r₀ semantics) now ≠
          .ok := by
  obtain ⟨hanswers, hfind, hnone, hrule, hgrants⟩ := Sample.revokes
  obtain ⟨r, hanswer, -⟩ := Step.exists_answer hanswers
  obtain ⟨r₀, hr₀, hholds⟩ := (Option.any_eq_true _ _).mp hfind
  have hmiss : (Op.revoke Sample.revocation).Missed {} (run {} Sample.guardedPlaced).state := by
    intro k hk
    cases hk
    exact hnone
  exact ⟨r, r₀, hanswer, hmiss, hr₀, hholds, hrule, rfl, fun g hg semantics now hok ↦
    hgrants g hg (authorityAdmits_eq_ok.mp hok).action⟩

end OffloadFabric
