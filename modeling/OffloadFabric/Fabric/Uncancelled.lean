import OffloadFabric.Fabric.Answers
import OffloadFabric.Fabric.Oversized
import OffloadFabric.Fabric.Verdicts

/-!
# Where a cancellation comes from

Only the polls of a cancel token refuse with `Cancelled` (`src/fabric.cpp:2207-2211,2325-2328,
3481-3484,3620-3624,3787-3791`): no check of a placement, no encoding and no durable call does.
-/

namespace OffloadFabric

open Lib Lib.Fallible Wire FabricM
open ReasonCode (noConfusion)

/-- An error that is no cancellation. -/
def Error.Uncancelled (e : Error) : Prop := e.code ≠ .cancelled

/-- An error that comes from no cancel token and no reassignment budget. -/
abbrev Error.Plain (e : Error) : Prop := e.code.Plain

theorem Error.Plain.uncancelled {e : Error} (h : e.Plain) : e.Uncancelled := h.1

theorem Error.Oversized.plain {e : Error} (h : e.Oversized) : e.Plain := by
  unfold Oversized at h
  unfold Plain
  rw [h]
  exact ⟨noConfusion, noConfusion⟩

/-! ## Checks -/

theorem authorityAdmits_plain (g : AuthorityGrant) (i : Intent) (now : Micros) :
    (authorityAdmits g i now).Plain := by
  unfold authorityAdmits
  repeat' split
  all_goals exact ⟨noConfusion, noConfusion⟩

theorem fails_tokenParse {d : IdDomain} (text : Bytes) :
    Fails Error.Plain (Token.parse text : Result (Token d)) := by
  unfold Token.parse
  split
  · exact .ok _
  · exact .error ⟨noConfusion, noConfusion⟩

theorem fails_scopeIdentity (spec : ScopeSpec) :
    Fails Error.Plain (scopeIdentity spec) := by
  have hvalidate : Fails Error.Plain spec.validate := by
    have hselector : Fails Error.Plain
        (require (spec.selector = [] ∨ isValidSelector spec.selector = true)
          ⟨.invalidIdentifier, "scope selector is not canonical"⟩) :=
      .require fun _ ↦ ⟨noConfusion, noConfusion⟩
    unfold ScopeSpec.validate
    cases spec.kind with
    | global => exact .bind (.require fun _ ↦ ⟨noConfusion, noConfusion⟩) fun _ _ ↦ hselector
    | host =>
        exact .bind (.require fun _ ↦ ⟨noConfusion, noConfusion⟩) fun _ _ ↦
          .bind (.require fun _ ↦ ⟨noConfusion, noConfusion⟩) fun _ _ ↦ hselector
    | interface =>
        exact .bind (.require fun _ ↦ ⟨noConfusion, noConfusion⟩) fun _ _ ↦
          .bind (.require fun _ ↦ ⟨noConfusion, noConfusion⟩) fun _ _ ↦ hselector
    | queue =>
        exact .bind (.require fun _ ↦ ⟨noConfusion, noConfusion⟩) fun _ _ ↦
          .bind (.require fun _ ↦ ⟨noConfusion, noConfusion⟩) fun _ _ ↦ hselector
    | flow => exact .bind (.require fun _ ↦ ⟨noConfusion, noConfusion⟩) fun _ _ ↦ hselector
  unfold scopeIdentity
  refine .bind hvalidate fun _ _ ↦ ?_
  split
  · unfold ScopeSpec.deriveScopeId ScopeSpec.canonicalText
    exact .bind (.bind hvalidate fun _ _ ↦ .ok _) fun _ _ ↦ fails_tokenParse _
  · exact .ok _

namespace EvaluationContext

variable {c : EvaluationContext} {d : DeviceRecord} {e : CandidateEvaluation}

/-- A program refuses candidates for plain reasons. -/
private abbrev Refuses {α : Type} (x : Except CandidateEvaluation α) : Prop :=
  Fails (fun e ↦ e.reason.Plain) x

private theorem refuses_capabilityStep : Refuses (c.capabilityStep d e) := by
  unfold capabilityStep
  split
  · exact .bind (.require fun _ ↦ ⟨noConfusion, noConfusion⟩) fun _ _ ↦ .ok _
  · next capability _ =>
      have hmatch := matchCapability_reason_plain c.function capability d.incarnation c.now
      refine .bind (.require fun _ ↦ hmatch) fun _ _ ↦ ?_
      split
      · exact .ok _
      · refine .bind (.require fun _ ↦ hmatch) fun _ _ ↦ ?_
        split
        · exact .bind (.require fun _ ↦ ⟨noConfusion, noConfusion⟩) fun _ _ ↦
            .bind (.require fun _ ↦ ⟨noConfusion, noConfusion⟩) fun _ _ ↦
              .bind (.require fun _ ↦ hmatch) fun _ _ ↦ .ok _
        · exact .ok _

private theorem refuses_livenessStep : Refuses (c.livenessStep d e) := by
  unfold livenessStep
  split
  · refine .bind (.present ⟨noConfusion, noConfusion⟩) fun o _ ↦
      .bind (.require fun _ ↦ ⟨noConfusion, noConfusion⟩) fun _ _ ↦
        .bind (.require fun _ ↦ ⟨noConfusion, noConfusion⟩) fun _ _ ↦
          .bind (.require fun _ ↦ ⟨noConfusion, noConfusion⟩) fun _ _ ↦
            .bind (.require fun _ ↦ ⟨noConfusion, noConfusion⟩) fun _ _ ↦ ?_
    cases o.liveness with
    | alive => exact .ok _
    | _ => exact .error ⟨noConfusion, noConfusion⟩
  · exact .ok _

private theorem refuses_evaluationSteps : Refuses (c.evaluationSteps d) := by
  have hkind : Refuses (c.kindStep d (candidateOf d)) := by
    unfold kindStep
    refine .bind (.require fun _ ↦ ⟨noConfusion, noConfusion⟩) fun _ _ ↦ ?_
    split
    · exact .bind (.require fun _ ↦ ⟨noConfusion, noConfusion⟩) fun _ _ ↦ .ok _
    · exact .bind (.require fun _ ↦ ⟨noConfusion, noConfusion⟩) fun _ _ ↦ .ok _
  have haffinity : ∀ e, Refuses (c.affinityStep d e) := fun e ↦
    .bind (.require fun _ ↦ ⟨noConfusion, noConfusion⟩) fun _ _ ↦
      .bind (.require fun _ ↦ ⟨noConfusion, noConfusion⟩) fun _ _ ↦
        .bind (.require fun _ ↦ ⟨noConfusion, noConfusion⟩) fun _ _ ↦
          .require fun _ ↦ ⟨noConfusion, noConfusion⟩
  have hcapacity : ∀ e, Refuses (c.capacityStep d e) := fun e ↦
    .bind (.require fun _ ↦ ⟨noConfusion, noConfusion⟩) fun _ _ ↦
      .require fun _ ↦ ⟨noConfusion, noConfusion⟩
  have hdependency : ∀ e dependency, Refuses (c.dependencyStep d e dependency) :=
    fun e dependency ↦ .bind (.require fun _ ↦ ⟨noConfusion, noConfusion⟩) fun _ _ ↦
      .bind (.require fun _ ↦ ⟨noConfusion, noConfusion⟩) fun _ _ ↦
        .require fun _ ↦ ⟨noConfusion, noConfusion⟩
  have hexclusivity : ∀ e, Refuses (c.exclusivityStep e) := by
    intro e
    unfold exclusivityStep
    split
    · exact .require fun _ ↦ ⟨noConfusion, noConfusion⟩
    · exact .ok _
  have hauthority : ∀ e, Refuses (c.authorityStep d e) := by
    intro e
    unfold authorityStep
    split
    · exact .require fun _ ↦ ⟨noConfusion, noConfusion⟩
    · exact .ok _
  unfold evaluationSteps
  exact .bind hkind fun _ _ ↦ .bind (haffinity _) fun _ _ ↦
    .bind refuses_capabilityStep fun e _ ↦ .bind (hcapacity e) fun _ _ ↦
      .bind refuses_livenessStep fun _ _ ↦ .bind (.forM (hdependency e) _) fun _ _ ↦
        .bind (hexclusivity e) fun _ _ ↦ .bind (hauthority e) fun _ _ ↦ .ok _

theorem evaluateDevice_plain (c : EvaluationContext) (d : DeviceRecord) :
    (c.evaluateDevice d).reason.Plain := by
  unfold evaluateDevice
  cases hsteps : c.evaluationSteps d with
  | error e => exact refuses_evaluationSteps e hsteps
  | ok e =>
      obtain ⟨-, contributing, rfl⟩ := evaluationSteps_ok hsteps
      exact ⟨noConfusion, noConfusion⟩

end EvaluationContext

namespace FabricState

variable {s : FabricState} {b : Bounds} {request : PlacementRequest} {now : Micros}

private theorem fails_planEvidence : Fails (· ≠ .cancelled) (s.planEvidence request now) := by
  unfold planEvidence
  exact .bind (.present noConfusion) fun _ _ ↦
    .bind (.present noConfusion) fun _ _ ↦
      .bind (.require fun _ ↦ noConfusion) fun _ _ ↦
        .bind (.require fun _ ↦ noConfusion) fun _ _ ↦
          .bind (.require fun _ ↦ noConfusion) fun _ _ ↦
            .bind (.require fun _ ↦ noConfusion) fun _ _ ↦
              .bind (.require fun _ ↦ noConfusion) fun _ _ ↦
                .bind (.require fun _ ↦ noConfusion) fun _ _ ↦ .ok _

private theorem fails_planFunction : Fails (· ≠ .cancelled) (s.planFunction request) := by
  unfold planFunction
  split
  · exact .ok _
  · exact .bind (.require fun _ ↦ noConfusion) fun _ _ ↦
      .bind (.require fun _ ↦ noConfusion) fun _ _ ↦ .ok _

private theorem acceptedPlan_uncancelled {c : EvaluationContext} {base : PlanResult}
    {truncated : Bool} {selected : CandidateEvaluation} :
    (s.acceptedPlan b c base truncated selected).primaryReason ≠ .cancelled := by
  unfold acceptedPlan
  generalize s.planFor b c base.explanation.binding selected = plan
  simp only
  by_cases hrefused : c.rule.requireAuthority = true ∧ plan.authority = .empty
  · rw [if_pos hrefused]
    exact noConfusion
  · rw [if_neg hrefused]
    simp only
    split
    · exact noConfusion
    · exact noConfusion

private theorem primaryRefusalReason_uncancelled {candidates : List CandidateEvaluation}
    (h : ∀ e ∈ candidates, e.reason ≠ .cancelled) :
    primaryRefusalReason candidates ≠ .cancelled := by
  unfold primaryRefusalReason
  cases hbest : bestCandidate (candidates.filter fun e ↦ !e.eligible) with
  | none => exact noConfusion
  | some best => exact h best (List.mem_filter.mp (mem_of_bestCandidate hbest)).1

private theorem planCandidates_uncancelled (c : EvaluationContext) (t : TopologySnapshot)
    (explanation : Explanation) :
    (s.planCandidates b c t explanation).primaryReason ≠ .cancelled := by
  unfold planCandidates
  extract_lets limit truncated candidates reported base
  have hcandidates : ∀ e ∈ candidates, e.reason ≠ .cancelled := by
    intro e he
    obtain ⟨d, -, rfl⟩ := List.mem_map.mp he
    obtain ⟨_, _, _, _, _, _, heq⟩ := s.planCandidate_eq c d
    rw [heq]
    exact (c.evaluateDevice_plain d).1
  clear_value base candidates
  split
  · exact primaryRefusalReason_uncancelled hcandidates
  · exact acceptedPlan_uncancelled

/-- The reason of a plan is no cancellation. -/
theorem planLocked_uncancelled {cancelled : Bool} {planned : PlanResult}
    (h : s.planLocked b request cancelled now = .ok planned) :
    planned.primaryReason ≠ .cancelled := by
  unfold planLocked at h
  obtain ⟨-, h⟩ := require_bind_eq_ok.mp h
  obtain ⟨scope, -, h⟩ := bind_eq_ok.mp h
  obtain ⟨-, h⟩ := require_bind_eq_ok.mp h
  split at h
  · next reason hevidence =>
      cases h
      exact fails_planEvidence reason hevidence
  split at h
  · next reason hfunction =>
      cases h
      exact fails_planFunction reason hfunction
  obtain ⟨-, h⟩ := require_bind_eq_ok.mp h
  split at h
  · cases h
    exact noConfusion
  change (if _ then _ else _ : Result PlanResult) = _ at h
  split at h
  · cases h
    exact noConfusion
  · rw [← Except.ok.inj h]
    exact planCandidates_uncancelled _ _ _

private theorem fails_planEvidenceChecks (p : AssignmentPlan) :
    Fails Error.Uncancelled (s.planEvidenceChecks b p) := by
  unfold planEvidenceChecks AssignmentPlan.digest
  refine .bind (.bind ((Writer.fails_encode _ _).mono fun _ h ↦ h.plain.uncancelled)
    fun _ _ ↦ .ok _) fun _ _ ↦ .bind (.require fun _ ↦ noConfusion) fun _ _ ↦
    .bind ((fails_scopeIdentity _).mono fun _ h ↦ h.uncancelled) fun _ _ ↦
    .bind (.require fun _ ↦ noConfusion) fun _ _ ↦
    .bind (.present noConfusion) fun _ _ ↦
    .bind (.present noConfusion) fun _ _ ↦
    .bind (.require fun _ ↦ noConfusion) fun _ _ ↦
    .bind (.require fun _ ↦ noConfusion) fun _ _ ↦
    .bind (.present noConfusion) fun _ _ ↦
    .bind (.require fun _ ↦ noConfusion) fun _ _ ↦
    .bind (.require fun _ ↦ noConfusion) fun _ _ ↦ ?_
  split
  · exact .bind (.present noConfusion) fun _ _ ↦
      .bind (.require fun _ ↦ noConfusion) fun _ _ ↦
        .bind (.present noConfusion) fun _ _ ↦ .ok _
  · exact .bind (.present noConfusion) fun _ _ ↦ .ok _

private theorem fails_replacementChecks {p : AssignmentPlan} {derived : ScopeId}
    {rule : PolicyRule} {allowReplacement : Bool} :
    Fails Error.Uncancelled (s.replacementChecks p derived rule allowReplacement now) := by
  unfold replacementChecks
  split
  · split
    · exact .ok _
    · exact .bind (.require fun _ ↦ noConfusion) fun _ _ ↦
        .bind (.require fun _ ↦ noConfusion) fun _ _ ↦ .ok _
  · exact .ok _

theorem fails_placementAuthorityChecks {p : AssignmentPlan} {policy : PolicySnapshot}
    {rule : PolicyRule} {derived : ScopeId} :
    Fails Error.Plain (s.placementAuthorityChecks p policy rule derived now) := by
  unfold placementAuthorityChecks
  split
  · simp only
    split
    · exact .bind (.present ⟨noConfusion, noConfusion⟩) fun _ _ ↦
        .require fun _ ↦ authorityAdmits_plain _ _ _
    · exact .require fun _ ↦ ⟨noConfusion, noConfusion⟩
  · exact .ok _

/-- No check of an authorization refuses for a cancellation. -/
theorem fails_authorizeChecks (p : AssignmentPlan) (allowReplacement : Bool) :
    Fails Error.Uncancelled (s.authorizeChecks b p allowReplacement now) := by
  unfold authorizeChecks
  refine .bind (fails_planEvidenceChecks p) fun found _ ↦ ?_
  obtain ⟨derived, policy, device, rule⟩ := found
  exact .bind fails_replacementChecks fun _ _ ↦
    .bind (.require fun _ ↦ (EvaluationContext.evaluateDevice_plain _ _).1) fun _ _ ↦
      .bind (fails_placementAuthorityChecks.mono fun _ h ↦ h.uncancelled) fun _ _ ↦ .ok _

/-- No check of a re-authorization refuses for a cancellation. -/
theorem fails_reauthorizationChecks (request : ReauthorizeRequest) (r : AssignmentRecord) :
    Fails Error.Uncancelled (s.reauthorizationChecks request r now) := by
  unfold reauthorizationChecks
  exact .bind (.require fun _ ↦ noConfusion) fun _ _ ↦
    .bind (.require fun _ ↦ noConfusion) fun _ _ ↦
      .bind (.present noConfusion) fun _ _ ↦
        .bind (.require fun _ ↦ (authorityAdmits_plain _ _ _).1) fun _ _ ↦
          .bind (.require fun _ ↦ assignmentTargetValidity_uncancelled _ _ _ _) fun _ _ ↦ .ok _

theorem fails_issueAssignmentId (s : FabricState) :
    Fails Error.Plain s.issueAssignmentId := by
  unfold issueAssignmentId
  split
  · exact .error ⟨noConfusion, noConfusion⟩
  · exact .bind (fails_tokenParse _) fun _ _ ↦ .ok _

theorem fails_issueLease (s : FabricState) : Fails Error.Plain s.issueLease := by
  unfold issueLease
  split
  · exact .error ⟨noConfusion, noConfusion⟩
  · exact .ok _

theorem fails_issueAttempt (s : FabricState) : Fails Error.Plain s.issueAttempt := by
  unfold issueAttempt
  split
  · exact .error ⟨noConfusion, noConfusion⟩
  · exact .ok _

theorem fails_issueFence (s : FabricState) : Fails Error.Plain s.issueFence := by
  unfold issueFence
  split
  · exact .error ⟨noConfusion, noConfusion⟩
  · exact .ok _

end FabricState

/-! ## Durable calls -/

namespace Log

private theorem fails_admission (b : Bounds) (bytes payload : Nat) :
    Fails Error.Plain (admission b bytes payload) := by
  unfold admission
  exact .bind (.require fun _ ↦ ⟨noConfusion, noConfusion⟩) fun _ _ ↦
    .bind (.require fun _ ↦ ⟨noConfusion, noConfusion⟩) fun _ _ ↦
      .bind (.require fun _ ↦ ⟨noConfusion, noConfusion⟩) fun _ _ ↦
        .require fun _ ↦ ⟨noConfusion, noConfusion⟩

private theorem throws_takeFault : Throws Error.Plain takeFault := by
  unfold takeFault
  refine .bind .get fun log ↦ ?_
  split
  · exact .pure _
  · exact .bind (.set _) fun _ ↦ .pure _

theorem throws_append (b : Bounds) (type : RecordType) (payload : Bytes) :
    Throws Error.Plain (append b type payload) := by
  unfold append
  exact .bind .get fun _ ↦ .bind (.check ⟨noConfusion, noConfusion⟩) fun _ ↦
    .bind (.liftExcept (fails_admission _ _ _)) fun _ ↦ .bind throws_takeFault fun _ ↦
      .ite (.modify _) (.throw ⟨noConfusion, noConfusion⟩)

theorem throws_compact (b : Bounds) (payload : Bytes) :
    Throws Error.Plain (compact b payload) := by
  unfold compact
  refine .bind (.check ⟨noConfusion, noConfusion⟩) fun _ ↦ .bind throws_takeFault fun fault ↦ ?_
  cases fault with
  | lost => exact .throw ⟨noConfusion, noConfusion⟩
  | installed => exact .bind (.modify _) fun _ ↦ .throw ⟨noConfusion, noConfusion⟩
  | emptied => exact .bind (.modify _) fun _ ↦ .throw ⟨noConfusion, noConfusion⟩
  | none =>
      exact .bind (.modify _) fun _ ↦ .bind (.liftExcept (fails_admission _ _ _)) fun _ ↦
        .modify _

end Log

namespace FabricM

variable {P : Error → Prop}

theorem throws_getState : Throws P getState := .bind .get fun _ ↦ .pure _

theorem throws_modifyState (f : FabricState → FabricState) : Throws P (modifyState f) := .modify _

theorem throws_onLog {α : Type} {x : Fallible Log Error α} (h : Throws P x) :
    Throws P (onLog x) := by
  intro m e he
  rw [exec_onLog] at he
  exact h m.log e he

theorem throws_issue {α : Type} {f : FabricState → Result (α × FabricState)} {tag : α → Issued}
    (h : ∀ s, Fails P (f s)) : Throws P (issue f tag) := by
  unfold issue
  refine .bind .get fun m ↦ ?_
  split
  · exact .bind (.set _) fun _ ↦ .pure _
  · next e he => exact .throw (h m.state e he)

end FabricM

namespace Fabric

variable {c : FabricConfig}

private theorem fails_snapshotEnvelope (b : Bounds) (s : FabricState) :
    Fails Error.Plain (snapshotEnvelope b s) := by
  unfold snapshotEnvelope
  exact .bind ((Writer.fails_encode _ _).mono fun _ h ↦ h.plain) fun _ _ ↦
    .bind ((Writer.fails_encode _ _).mono fun _ h ↦ h.plain) fun _ _ ↦
      .bind (.require fun _ ↦ ⟨noConfusion, noConfusion⟩) fun _ _ ↦ .ok _

private theorem throws_encode (w : Writer) [Coder.Raises Error.Oversized w] (limit : Nat) :
    Throws Error.Plain (liftExcept (w.encode limit) : FabricM Bytes) :=
  .liftExcept ((Writer.fails_encode w limit).mono fun _ h ↦ h.plain)

theorem throws_commit (type : RecordType) (payload : Bytes) :
    Throws Error.Plain (commit c type payload) := by
  have hcompact : Throws Error.Plain (compactLocked c) := by
    unfold compactLocked
    exact .bind .get fun _ ↦ .ite (.bind (.liftExcept (fails_snapshotEnvelope _ _)) fun _ ↦
      throws_onLog (Log.throws_compact _ _)) (.pure _)
  unfold commit
  refine .bind .get fun m ↦ .ite ?_ (.pure _)
  split
  · exact .bind hcompact fun _ ↦ throws_onLog (Log.throws_append _ _ _)
  · exact throws_onLog (Log.throws_append _ _ _)

theorem throws_storeAssignment (r : AssignmentRecord) (id : RequestId) (fingerprint : Digest)
    (type : RecordType) (now : Micros) :
    Throws Error.Plain (storeAssignment c r id fingerprint type now) := by
  unfold storeAssignment answer
  exact .bind (throws_encode _ _) fun _ ↦ .bind (throws_commit _ _) fun _ ↦
    .bind (throws_modifyState _) fun _ ↦
      .ite (.bind (throws_encode _ _) fun _ ↦ throws_modifyState _) (.pure _)

theorem throws_recordRefusal (id : RequestId) (fingerprint : Digest) (e : Error) (now : Micros) :
    Throws Error.Plain (recordRefusal c id fingerprint e now) := by
  unfold recordRefusal
  exact .ite (.bind (throws_encode _ _) fun _ ↦ .bind (throws_encode _ _) fun _ ↦
    .bind (throws_commit _ _) fun _ ↦ throws_modifyState _) (.pure _)

theorem throws_supersede (replacing : AssignmentId) (k : ExclusivityKey) (now : Micros) :
    Throws Error.Plain (supersede c replacing k now) := by
  unfold supersede noteReassignment
  refine .ite (.bind throws_getState fun s ↦ ?_) (.pure _)
  split
  · exact .pure _
  · exact .bind (throws_storeAssignment _ _ _ _ _) fun _ ↦ .bind (throws_modifyState _) fun _ ↦
      .bind (throws_encode _ _) fun _ ↦ throws_commit _ _

end Fabric

end OffloadFabric
