import OffloadFabric.Fabric.Transitions

/-!
# Answers

Where the record comes from that a placement or a re-authorization answers with
(`src/fabric.cpp:3310-3332,3541-3586,3618-3750,3828-3981`): an earlier request of the same
identifier, the assignment as it was found, or what the operation stored.
-/

namespace OffloadFabric

open Lib Lib.Fallible FabricM FabricState

/-- The answer recorded for the request of an operation. -/
structure Recalled (c : FabricConfig) (s : FabricState) (op : Op) (r : AssignmentRecord) :
    Prop where
  exists_entry : ∃ k entry, op.lookup c s = some k ∧ s.findIdempotency k.1 = some entry ∧
    entry.requestFingerprint = k.2 ∧ Fabric.replayCachedAssignment entry = .ok r

/-- Where the answer of a placement or a re-authorization comes from. -/
inductive Answered (c : FabricConfig) (now : ClockReadings) (s : FabricState) :
    Op → AssignmentRecord → Prop
  | recalled {op : Op} {r : AssignmentRecord} (h : Recalled c s op r) : Answered c now s op r
  | held {request : ReauthorizeRequest} {r : AssignmentRecord}
      (hmiss : (Op.reauthorize request).Missed c s)
      (hfind : s.assignments.find? request.assignment = some r)
      (hholds : r.state.holdsAuthority = true) : Answered c now s (.reauthorize request) r
  | created {op : Op} {p : AssignmentPlan} {options : ApplyOptions} {auth : Authorization}
      {t : Micros} {i : Identity} {issued : FabricState} (hmiss : op.Missed c s)
      (ha : Authorized c now s op p options auth t) (hi : s.Issues i issued) :
      Answered c now s op
        (newAssignment c s p auth options.requestId i.id i.lease i.attempt i.fence t)
  | reauthorized {request : ReauthorizeRequest} {r : AssignmentRecord} {validity : ReasonCode}
      {lease : LeaseId} {attempt : AttemptId} {fence : FencingToken} {issued : FabricState}
      (hmiss : (Op.reauthorize request).Missed c s) (hi : s.Renews lease attempt fence issued)
      (hfind : s.assignments.find? request.assignment = some r)
      (hfree : r.state.holdsAuthority = false)
      (hcheck : s.reauthorizationChecks request r (now 0) = .ok validity) :
      Answered c now s (.reauthorize request)
        (s.reauthorized c.bounds r request.authority validity lease attempt fence (now 0))

namespace Fabric

variable {c : FabricConfig} {m m' : Impl} {st : Step} {r : AssignmentRecord}

theorem recalled_of_lookup {id : RequestId} {fingerprint : Digest} {detail : String}
    {s : FabricState} {op : Op} {cached : Result AssignmentRecord}
    (hk : op.lookup c s = some (id, fingerprint))
    (h : cachedAnswer s id fingerprint detail = some cached) (hr : cached = .ok r) :
    Recalled c s op r := by
  unfold cachedAnswer at h
  obtain ⟨entry, hentry, heq⟩ := Option.map_eq_some_iff.mp h
  by_cases hsame : entry.requestFingerprint = fingerprint
  · rw [if_pos hsame, hr] at heq
    exact ⟨⟨_, entry, hk, hentry, hsame, heq⟩⟩
  · rw [if_neg hsame, hr] at heq
    cases heq

private theorem storeAssignment_ok {id : RequestId} {fingerprint : Digest} {type : RecordType}
    (htype : type = .assignmentCreated ∨ type = .assignmentTransitioned) {now : Micros}
    {u : Unit} (h : (storeAssignment c r id fingerprint type now).exec m = (.ok u, m')) :
    m'.state.assignments = m.state.assignments.insert r := by
  have ho := storeAssignment_exec c r id fingerprint htype now m
  rw [h] at ho
  cases ho with
  | stored _ _ _ => exact storing_assignments _ _ _ _ _

/-- What an authorization answers with, it created, behind the holder it superseded. -/
theorem authorizeLocked_ok {p : AssignmentPlan} {options : ApplyOptions} {polls : Nat}
    {now stored : Micros}
    (h : (authorizeLocked c p options polls now stored).exec m = (.ok r, m')) :
    ∃ auth i issued,
      m.state.authorizeChecks c.bounds p options.allowReplacement now = .ok auth ∧
      m.state.Issues i issued ∧
      r = newAssignment c m.state p auth options.requestId i.id i.lease i.attempt i.fence now ∧
      m'.state.assignments =
        (issued.superseding c.bounds auth.replacing ⟨auth.scope, p.cls⟩ now).assignments.insert
          r := by
  unfold authorizeLocked at h
  obtain ⟨s, _, hs, h₁⟩ := exec_bind_ok h
  cases hs
  obtain ⟨auth, _, hauth, h₂⟩ := exec_bind_ok h₁
  obtain ⟨hauth, rfl⟩ := exec_liftExcept_ok hauth
  obtain ⟨_, _, hcancel, h₃⟩ := exec_bind_ok h₂
  obtain ⟨-, rfl⟩ := exec_check_ok hcancel
  obtain ⟨id, _, hid, h₄⟩ := exec_bind_ok h₃
  obtain ⟨s₁, hs₁, rfl⟩ := FabricM.issue_ok hid
  obtain ⟨lease, _, hlease, h₅⟩ := exec_bind_ok h₄
  obtain ⟨s₂, hs₂, rfl⟩ := FabricM.issue_ok hlease
  obtain ⟨attempt, _, hattempt, h₆⟩ := exec_bind_ok h₅
  obtain ⟨s₃, hs₃, rfl⟩ := FabricM.issue_ok hattempt
  obtain ⟨fence, _, hfence, h₇⟩ := exec_bind_ok h₆
  obtain ⟨s₄, hs₄, rfl⟩ := FabricM.issue_ok hfence
  obtain ⟨_, m₅, hsupersede, h₈⟩ := exec_bind_ok h₇
  obtain ⟨_, m₆, hstore, h₉⟩ := exec_bind_ok h₈
  cases h₉
  refine ⟨auth, ⟨id, lease, attempt, fence⟩, s₄, hauth,
    ⟨s₁, s₂, s₃, issueAssignmentId_ok hs₁, issueLease_ok hs₂, issueAttempt_ok hs₃,
      issueFence_ok hs₄⟩, rfl, ?_⟩
  rw [storeAssignment_ok (.inl rfl) hstore, supersede_ok hsupersede]

private theorem refusing_ok {id : RequestId} {fingerprint : Digest} {now : Micros}
    {x : FabricM AssignmentRecord} (h : (refusing c id fingerprint now x).exec m = (.ok r, m')) :
    x.exec m = (.ok r, m') := by
  unfold refusing at h
  rw [exec_tryCatch] at h
  cases hx : x.exec m with
  | mk answer m₁ =>
      rw [hx] at h
      cases answer with
      | ok r' => exact h
      | error e =>
          obtain ⟨_, _, -, hthrow⟩ := exec_bind_ok h
          cases hthrow

/-- A placement that succeeds is answered from before, or authorizes an accepted plan. -/
theorem applyLocked_ok {request : PlacementRequest} {options : ApplyOptions}
    {now : ClockReadings} (h : (applyLocked c request options now).exec m = (.ok r, m')) :
    (∃ cached, cachedAnswer m.state request.requestId (fingerprintOf c.bounds request)
        "request identifier was reused with a different payload" = some cached ∧ cached = .ok r) ∨
      cachedAnswer m.state request.requestId (fingerprintOf c.bounds request)
          "request identifier was reused with a different payload" = none ∧
        ∃ planned, m.state.planLocked c.bounds request (options.cancel 1) (now 1) = .ok planned ∧
          planned.decision ≠ .refuse ∧
          (authorizeLocked c planned.plan (effectiveOptions request options planned) 2 (now 2)
            (now 3)).exec m = (.ok r, m') := by
  unfold applyLocked at h
  obtain ⟨_, _, hcancel, h₁⟩ := exec_bind_ok h
  obtain ⟨-, rfl⟩ := exec_check_ok hcancel
  obtain ⟨s, _, hs, h₂⟩ := exec_bind_ok h₁
  cases hs
  simp only at h₂
  split at h₂
  · next cached hcached => exact .inl ⟨cached, hcached, (exec_liftExcept_ok h₂).1⟩
  · next hcached =>
      obtain ⟨planned, _, hplanned, h₃⟩ := exec_bind_ok h₂
      obtain ⟨hplanned, rfl⟩ := exec_liftExcept_ok hplanned
      split at h₃
      · obtain ⟨_, _, -, hthrow⟩ := exec_bind_ok h₃
        cases hthrow
      · next hdecision =>
          exact .inr ⟨hcached, planned, hplanned, hdecision, refusing_ok h₃⟩

private theorem applyLocked_answered {request : PlacementRequest} {options : ApplyOptions}
    (hk : st.op.lookup c m.state =
      some (request.requestId, fingerprintOf c.bounds request))
    (hplan : st.op.authorization c st.now m.state =
      Op.placement c st.now m.state request options)
    (h : (applyLocked c request options st.now).exec m = (.ok r, m')) :
    Answered c st.now m.state st.op r := by
  rcases applyLocked_ok h with ⟨cached, hcached, hr⟩ | ⟨hcached, planned, hplanned, hd, h⟩
  · exact .recalled (recalled_of_lookup hk hcached hr)
  · have hmiss := missed_of_lookup hk hcached
    unfold Op.placement at hplan
    rw [hplanned] at hplan
    simp only [if_neg hd] at hplan
    obtain ⟨auth, i, issued, hauth, hi, rfl, -⟩ := authorizeLocked_ok h
    exact .created hmiss ⟨hplan, hauth⟩ hi

private theorem answered_apply {request : PlacementRequest} {options : ApplyOptions}
    (hop : st.op = .apply request options)
    (h : (apply c request options st.now).exec m = (.ok r, m')) :
    Answered c st.now m.state st.op r := by
  unfold apply at h
  obtain ⟨_, _, haccept, h₁⟩ := exec_bind_ok h
  obtain ⟨rfl, -, -⟩ := checkAccepting_ok haccept
  refine applyLocked_answered ?_ ?_ h₁
  · rw [hop]
    rfl
  · rw [hop]
    rfl

private theorem answered_applyPlan {planned : PlanResult} {options : ApplyOptions}
    (hop : st.op = .applyPlan planned options)
    (h : (applyPlan c planned options st.now).exec m = (.ok r, m')) :
    Answered c st.now m.state st.op r := by
  unfold applyPlan at h
  obtain ⟨_, _, haccept, h₁⟩ := exec_bind_ok h
  obtain ⟨rfl, -, -⟩ := checkAccepting_ok haccept
  obtain ⟨_, m, hrefuse, h₂⟩ := exec_bind_ok h₁
  obtain ⟨-, rfl⟩ := exec_check_ok hrefuse
  obtain ⟨s, _, hs, h₃⟩ := exec_bind_ok h₂
  cases hs
  have hk : st.op.lookup c m.state = some (options.requestId, planned.plan.planDigest) := by
    rw [hop]
    rfl
  split at h₃
  · next cached hcached =>
      obtain ⟨hr, -⟩ := exec_liftExcept_ok h₃
      exact .recalled (recalled_of_lookup hk hcached hr)
  · next hcached =>
      obtain ⟨auth, i, issued, hauth, hi, rfl, -⟩ := authorizeLocked_ok (refusing_ok h₃)
      refine .created (missed_of_lookup hk hcached) ⟨?_, hauth⟩ hi
      rw [hop]
      rfl

private theorem answered_replace {request : ReplaceRequest} (hop : st.op = .replace request)
    (h : (replace c request st.now).exec m = (.ok r, m')) :
    Answered c st.now m.state st.op r := by
  unfold replace at h
  obtain ⟨_, _, haccept, h₁⟩ := exec_bind_ok h
  obtain ⟨rfl, -, -⟩ := checkAccepting_ok haccept
  obtain ⟨s, _, hs, h₂⟩ := exec_bind_ok h₁
  cases hs
  obtain ⟨current, _, hcurrent, h₃⟩ := exec_bind_ok h₂
  obtain ⟨hcurrent, rfl⟩ := exec_found_ok hcurrent
  refine applyLocked_answered ?_ ?_ h₃
  · rw [hop]
    simp only [Op.lookup, hcurrent, Option.map_some]
  · rw [hop]
    simp only [Op.authorization, hcurrent]

private theorem answered_reauthorize {request : ReauthorizeRequest}
    (hop : st.op = .reauthorize request)
    (h : (reauthorize c request st.now).exec m = (.ok r, m')) :
    Answered c st.now m.state st.op r := by
  unfold reauthorize at h
  obtain ⟨_, m, haccept, h₁⟩ := exec_bind_ok h
  obtain ⟨rfl, -, -⟩ := checkAccepting_ok haccept
  obtain ⟨s, _, hs, h₂⟩ := exec_bind_ok h₁
  cases hs
  have hk : st.op.lookup c m.state = some (request.requestId, request.fingerprint) := by
    rw [hop]
    rfl
  split at h₂
  · next cached hcached =>
      obtain ⟨hr, -⟩ := exec_liftExcept_ok h₂
      exact .recalled (recalled_of_lookup hk hcached hr)
  · next hcached =>
      have hmiss := missed_of_lookup hk hcached
      rw [hop] at hmiss ⊢
      obtain ⟨r₀, _, hr₀, h₃⟩ := exec_bind_ok h₂
      obtain ⟨hr₀, rfl⟩ := exec_found_ok hr₀
      split at h₃
      · next hholds =>
          cases h₃
          exact .held hmiss hr₀ hholds
      · next hholds =>
          obtain ⟨validity, _, hcheck, h₄⟩ := exec_bind_ok h₃
          obtain ⟨hcheck, rfl⟩ := exec_liftExcept_ok hcheck
          obtain ⟨lease, _, hlease, h₅⟩ := exec_bind_ok h₄
          obtain ⟨s₁, hs₁, rfl⟩ := FabricM.issue_ok hlease
          obtain ⟨attempt, _, hattempt, h₆⟩ := exec_bind_ok h₅
          obtain ⟨s₂, hs₂, rfl⟩ := FabricM.issue_ok hattempt
          obtain ⟨fence, _, hfence, h₇⟩ := exec_bind_ok h₆
          obtain ⟨s₃, hs₃, rfl⟩ := FabricM.issue_ok hfence
          obtain ⟨_, _, -, h₈⟩ := exec_bind_ok h₇
          cases h₈
          exact .reauthorized hmiss ⟨s₁, s₂, issueLease_ok hs₁, issueAttempt_ok hs₂,
            issueFence_ok hs₃⟩ hr₀ (Bool.not_eq_true _ ▸ hholds) hcheck

private theorem answered_revoke {request : RevokeRequest} (hop : st.op = .revoke request)
    (h : (revoke c request st.now).exec m = (.ok r, m')) :
    Recalled c m.state st.op r ∨ st.op.Missed c m.state ∧
      ∃ r₀, m.state.assignments.find? request.assignment = some r₀ ∧
        (r₀.state = .revoked ∨ m.state.revocationChecks request r₀ (st.now 0) = .ok ()) := by
  unfold revoke at h
  obtain ⟨_, _, haccept, h₁⟩ := exec_bind_ok h
  obtain ⟨rfl, -, -⟩ := checkAccepting_ok haccept
  obtain ⟨s, _, hs, h₂⟩ := exec_bind_ok h₁
  cases hs
  rename_i m
  have hk : st.op.lookup c m.state = some (request.requestId, request.fingerprint) := by
    rw [hop]
    rfl
  split at h₂
  · next cached hcached =>
      obtain ⟨hr, -⟩ := exec_liftExcept_ok h₂
      exact .inl (recalled_of_lookup hk hcached hr)
  · next hcached =>
      obtain ⟨r₀, _, hr₀, h₃⟩ := exec_bind_ok h₂
      obtain ⟨hr₀, rfl⟩ := exec_found_ok hr₀
      refine .inr ⟨missed_of_lookup hk hcached, r₀, hr₀, ?_⟩
      split at h₃
      · next hrevoked => exact .inl hrevoked
      · obtain ⟨_, _, hcancel, h₄⟩ := exec_bind_ok h₃
        obtain ⟨-, rfl⟩ := exec_check_ok hcancel
        obtain ⟨_, _, hcheck, -⟩ := exec_bind_ok h₄
        exact .inr (exec_liftExcept_ok hcheck).1

end Fabric

/-- The operations that place or re-authorize an assignment. -/
def Op.establishes : Op → Bool
  | .apply _ _ | .applyPlan _ _ | .replace _ | .reauthorize _ => true
  | _ => false

/-- A change of an operation that delivers no evidence leaves the evidence. -/
theorem Change.sameEvidence {c : FabricConfig} {st : Step} {m₀ m m' : Impl}
    (h : Change c st m₀ m m') (hop : st.op.establishes = true) :
    SameEvidence m.state m'.state := by
  cases h with
  | delivered hm hd hp hl =>
      generalize st.op = op at hop hd
      cases op with
      | apply _ _ => cases hd
      | applyPlan _ _ => cases hd
      | replace _ => cases hd
      | reauthorize _ => cases hd
      | _ => cases hop
  | stored hmiss hv hp hr hl => exact sameEvidence_storing _ _ _ _ _
  | refused hmiss hid hk hr hp hl => exact sameEvidence_recordIdempotency _ _ _ _
  | issued _ hi =>
      cases hi <;> exact ⟨rfl, rfl, rfl, rfl, rfl, rfl, rfl, fun _ ↦ rfl⟩
  | stamped => exact ⟨rfl, rfl, rfl, rfl, rfl, rfl, rfl, fun _ ↦ rfl⟩
  | crashed hcrash =>
      rw [hcrash] at hop
      cases hop
  | _ => exact SameEvidence.refl _

/-- A placement and a re-authorization leave the evidence. -/
theorem Step.sameEvidence {c : FabricConfig} {m : Impl} {st : Step}
    (hop : st.op.establishes = true) : SameEvidence m.state (st.next c m).state := by
  have hstart : ∀ boot, st.op ≠ .start boot := by
    intro boot heq
    rw [heq] at hop
    cases hop
  have hcrash : st.op ≠ .crash := by
    intro heq
    rw [heq] at hop
    cases hop
  exact st.active (P := fun m' ↦ SameEvidence m.state m'.state) hstart hcrash (.refl _)
    fun _ _ hc _ ih ↦ ih.trans (hc.sameEvidence hop)

theorem exec_map_ok {x : FabricM AssignmentRecord} {m m' : Impl} {r : AssignmentRecord}
    (h : (some <$> x : FabricM (Option AssignmentRecord)).exec m = (.ok (some r), m')) :
    x.exec m = (.ok r, m') := by
  rw [map_eq_pure_bind] at h
  obtain ⟨r', _, hx, h₁⟩ := exec_bind_ok h
  cases h₁
  exact hx

open Fabric in
/-- Where the answer of a placement or a re-authorization comes from. -/
theorem Step.answered {c : FabricConfig} {m : Impl} {st : Step} {r : AssignmentRecord}
    (hop : st.op.establishes = true) (h : (st.exec c m).1 = .ok (some r)) :
    Answered c st.now m.state st.op r := by
  obtain ⟨m', h⟩ : ∃ m', st.exec c m = (.ok (some r), m') := ⟨_, Prod.ext h rfl⟩
  rw [← Impl.facing_state m st.faults]
  unfold Step.exec at h
  cases hst : st.op with
  | apply request options =>
      rw [hst] at h
      exact hst ▸ answered_apply hst (exec_map_ok h)
  | applyPlan planned options =>
      rw [hst] at h
      exact hst ▸ answered_applyPlan hst (exec_map_ok h)
  | replace request =>
      rw [hst] at h
      exact hst ▸ answered_replace hst (exec_map_ok h)
  | reauthorize request =>
      rw [hst] at h
      exact hst ▸ answered_reauthorize hst (exec_map_ok h)
  | _ =>
      rw [hst] at hop
      cases hop

theorem Recalled.not_missed {c : FabricConfig} {s : FabricState} {op : Op}
    {r : AssignmentRecord} (h : Recalled c s op r) : ¬ op.Missed c s := by
  obtain ⟨k, entry, hk, hentry, -⟩ := h.exists_entry
  intro hmiss
  have hnone := hmiss k hk
  rw [hentry] at hnone
  cases hnone

/-- A placement that is answered for the first time created its answer. -/
theorem Step.created {c : FabricConfig} {m : Impl} {st : Step} {r : AssignmentRecord}
    (hop : st.op.places = true) (h : (st.exec c m).1 = .ok (some r))
    (hmiss : st.op.Missed c m.state) :
    ∃ p options auth t, ∃ i : Identity, ∃ issued,
      Authorized c st.now m.state st.op p options auth t ∧ m.state.Issues i issued ∧
        r = newAssignment c m.state p auth options.requestId i.id i.lease i.attempt i.fence t := by
  have hestablishes : st.op.establishes = true := by
    generalize st.op = op at hop
    cases op with
    | apply _ _ => rfl
    | applyPlan _ _ => rfl
    | replace _ => rfl
    | _ => cases hop
  have hans := st.answered hestablishes h
  generalize st.op = op at hop hmiss hans
  cases hans with
  | recalled hrecalled => exact absurd hmiss hrecalled.not_missed
  | held _ _ _ => cases hop
  | created _ ha hi => exact ⟨_, _, _, _, _, _, ha, hi, rfl⟩
  | reauthorized _ _ _ _ _ => cases hop

/-- A re-authorization that is answered for the first time, of an assignment without authority,
passed its checks. -/
theorem Step.reauthorized {c : FabricConfig} {m : Impl} {st : Step} {r r₀ : AssignmentRecord}
    {request : ReauthorizeRequest} (hop : st.op = .reauthorize request)
    (h : (st.exec c m).1 = .ok (some r)) (hmiss : st.op.Missed c m.state)
    (hfind : m.state.assignments.find? request.assignment = some r₀)
    (hfree : r₀.state.holdsAuthority = false) :
    ∃ validity, m.state.reauthorizationChecks request r₀ (st.now 0) = .ok validity := by
  have hans := st.answered (by rw [hop]; rfl) h
  rw [hop] at hans hmiss
  cases hans with
  | recalled hrecalled => exact absurd hmiss hrecalled.not_missed
  | held _ hfound hholds =>
      rw [hfind, Option.some.injEq] at hfound
      rw [hfound, hholds] at hfree
      cases hfree
  | created _ ha _ => cases ha.asked
  | reauthorized _ _ hfound _ hcheck =>
      rw [hfind, Option.some.injEq] at hfound
      exact ⟨_, hfound ▸ hcheck⟩

open Fabric in
/-- A revocation that is answered was recorded before, found its assignment revoked or passed
its checks. -/
theorem Step.revoked {c : FabricConfig} {m : Impl} {st : Step} {r : AssignmentRecord}
    {request : RevokeRequest} (hop : st.op = .revoke request)
    (h : (st.exec c m).1 = .ok (some r)) :
    Recalled c m.state st.op r ∨ st.op.Missed c m.state ∧
      ∃ r₀, m.state.assignments.find? request.assignment = some r₀ ∧
        (r₀.state = .revoked ∨ m.state.revocationChecks request r₀ (st.now 0) = .ok ()) := by
  obtain ⟨m', h⟩ : ∃ m', st.exec c m = (.ok (some r), m') := ⟨_, Prod.ext h rfl⟩
  rw [← Impl.facing_state m st.faults]
  unfold Step.exec at h
  rw [hop] at h
  exact answered_revoke hop (exec_map_ok h)

/-- A step answers with a record of the given kind. -/
def Step.answersWith (c : FabricConfig) (m : Impl) (st : Step) (p : AssignmentRecord → Bool) :
    Bool :=
  match (st.exec c m).1 with
  | .ok (some r) => p r
  | _ => false

theorem Step.exists_answer {c : FabricConfig} {m : Impl} {st : Step}
    {p : AssignmentRecord → Bool} (h : st.answersWith c m p = true) :
    ∃ r, (st.exec c m).1 = .ok (some r) ∧ p r = true := by
  unfold answersWith at h
  split at h
  · next r hr => exact ⟨r, hr, h⟩
  · cases h

end OffloadFabric
