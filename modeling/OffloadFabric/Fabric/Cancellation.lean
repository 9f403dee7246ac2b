import OffloadFabric.Fabric.Uncancelled

/-!
# Cancelled operations

What each operation that polls a cancel token has done when it returns `Cancelled`:
`src/fabric.cpp:2194-2263,3336-3585,3618-3864,3866-3996`.
-/

namespace OffloadFabric

open Lib Lib.Fallible FabricM

/-- The runtime accepts requests. -/
structure Impl.Accepting (m : Impl) : Prop where
  running : m.running = true
  accepted : m.recoveryAccepted = true

/-- The refusal of a placement at its last poll, `src/fabric.cpp:3481-3484`. -/
def cancelledBeforeCommit : Error := ⟨.cancelled, "placement cancelled before commit"⟩

/-! ## Placements -/

namespace Fabric

variable {c : FabricConfig} {m m' : Impl} {e : Error}

/-- A refusal of the checks every mutating operation starts with is no cancellation. -/
theorem accepting_of_cancelled {α : Type} {f : Unit → FabricM α}
    (h : (checkAccepting >>= f).exec m = (.error e, m')) (hcode : e.code = .cancelled) :
    m.Accepting ∧ (f ()).exec m = (.error e, m') := by
  unfold checkAccepting at h
  simp only [exec_bind, exec_get, exec_check] at h
  by_cases hrun : m.running = true
  · by_cases hacc : m.recoveryAccepted = true
    · simp only [hrun, hacc, if_true] at h
      exact ⟨⟨hrun, hacc⟩, h⟩
    · simp only [hrun, if_true, if_neg hacc] at h
      cases h
      cases hcode
  · simp only [if_neg hrun] at h
    cases h
    cases hcode

theorem exec_accepting {α : Type} (hm : m.Accepting) (f : Unit → FabricM α) :
    (checkAccepting >>= f).exec m = (f ()).exec m := by
  unfold checkAccepting
  simp only [exec_bind, exec_get, exec_check, hm.running, hm.accepted, if_true]

/-- Where an authorization that fails does: in its checks, at its poll, or behind both for a plain
reason. -/
theorem authorizeLocked_error {p : AssignmentPlan} {options : ApplyOptions} {polls : Nat}
    {now stored : Micros}
    (h : (authorizeLocked c p options polls now stored).exec m = (.error e, m')) :
    m' = m ∧ m.state.authorizeChecks c.bounds p options.allowReplacement now = .error e ∨
      (∃ auth, m.state.authorizeChecks c.bounds p options.allowReplacement now = .ok auth) ∧
        (m' = m ∧ e = cancelledBeforeCommit ∧ options.cancel polls = true ∨ e.Plain) := by
  unfold authorizeLocked at h
  rw [exec_bind, exec_getState] at h
  simp only at h
  rw [exec_bind, exec_liftExcept] at h
  cases hchecks : m.state.authorizeChecks c.bounds p options.allowReplacement now with
  | error e' =>
      rw [hchecks] at h
      cases h
      exact .inl ⟨rfl, rfl⟩
  | ok auth =>
      rw [hchecks] at h
      simp only at h
      rw [exec_bind, exec_check] at h
      refine .inr ⟨⟨auth, rfl⟩, ?_⟩
      by_cases hpoll : options.cancel polls = false
      · rw [if_pos hpoll] at h
        refine .inr (Throws.of_exec (P := Error.Plain) h ?_)
        exact .bind (throws_issue FabricState.fails_issueAssignmentId) fun _ ↦
          .bind (throws_issue FabricState.fails_issueLease) fun _ ↦
            .bind (throws_issue FabricState.fails_issueAttempt) fun _ ↦
              .bind (throws_issue FabricState.fails_issueFence) fun _ ↦
                .bind (throws_supersede _ _ _) fun _ ↦
                  .bind (throws_storeAssignment _ _ _ _ _) fun _ ↦ .pure _
      · rw [if_neg hpoll] at h
        cases h
        exact .inl ⟨rfl, rfl, Bool.not_eq_false _ ▸ hpoll⟩

/-- An authorization that is cancelled passed its checks and changed nothing. -/
theorem authorizeLocked_cancelled {p : AssignmentPlan} {options : ApplyOptions} {polls : Nat}
    {now stored : Micros}
    (h : (authorizeLocked c p options polls now stored).exec m = (.error e, m'))
    (hcode : e.code = .cancelled) :
    m' = m ∧ e = cancelledBeforeCommit ∧ options.cancel polls = true ∧
      ∃ auth, m.state.authorizeChecks c.bounds p options.allowReplacement now = .ok auth := by
  rcases authorizeLocked_error h with ⟨-, hchecks⟩ | ⟨hchecks, ⟨hm, he, hpoll⟩ | hplain⟩
  · exact absurd hcode (FabricState.fails_authorizeChecks _ _ e hchecks)
  · exact ⟨hm, he, hpoll, hchecks⟩
  · exact absurd hcode hplain.uncancelled

/-- With its checks passed and the token set, an authorization is cancelled. -/
theorem exec_authorizeLocked_cancelled {p : AssignmentPlan} {options : ApplyOptions}
    {polls : Nat} {now stored : Micros} {auth : Authorization}
    (hchecks : m.state.authorizeChecks c.bounds p options.allowReplacement now = .ok auth)
    (hpoll : options.cancel polls = true) :
    (authorizeLocked c p options polls now stored).exec m = (.error cancelledBeforeCommit, m) := by
  unfold authorizeLocked
  rw [exec_bind, exec_getState]
  simp only
  rw [exec_bind, exec_liftExcept, hchecks]
  simp only
  rw [exec_bind, exec_check, if_neg (by rw [hpoll]; decide)]
  rfl

/-- A refusal that is a cancellation was one before it was recorded. -/
theorem refusing_cancelled {id : RequestId} {fingerprint : Digest} {now : Micros}
    {x : FabricM AssignmentRecord} (h : (refusing c id fingerprint now x).exec m = (.error e, m'))
    (hcode : e.code = .cancelled) :
    ∃ m₁, x.exec m = (.error e, m₁) ∧
      (recordRefusal c id fingerprint e now).exec m₁ = (.ok (), m') := by
  unfold refusing at h
  rw [exec_tryCatch] at h
  cases hx : x.exec m with
  | mk answer m₁ =>
      rw [hx] at h
      cases answer with
      | ok r => cases h
      | error e' =>
          simp only at h
          rw [exec_bind] at h
          cases hrecord : (recordRefusal c id fingerprint e' now).exec m₁ with
          | mk recorded m₂ =>
              rw [hrecord] at h
              cases recorded with
              | ok u =>
                  cases h
                  exact ⟨m₁, rfl, hrecord⟩
              | error e₂ =>
                  cases h
                  exact absurd hcode (Throws.of_exec hrecord
                    (throws_recordRefusal id fingerprint e' now)).uncancelled

theorem cachedAnswer_eq_none {s : FabricState} {id : RequestId} {fingerprint : Digest}
    {detail : String} :
    cachedAnswer s id fingerprint detail = none ↔ s.findIdempotency id = none := by
  unfold cachedAnswer
  rw [Option.map_eq_none_iff]

/-- A cancellation recorded before answers its duplicates only. -/
private theorem cachedAnswer_cancelled {s : FabricState} {id : RequestId} {fingerprint : Digest}
    {detail : String} {cached : Result AssignmentRecord}
    (h : cachedAnswer s id fingerprint detail = some cached) (he : cached = .error e)
    (hcode : e.code = .cancelled) :
    ∃ entry, s.findIdempotency id = some entry ∧ entry.requestFingerprint = fingerprint := by
  unfold cachedAnswer at h
  obtain ⟨entry, hentry, hanswer⟩ := Option.map_eq_some_iff.mp h
  refine ⟨entry, hentry, ?_⟩
  by_contra hne
  rw [if_neg hne, he] at hanswer
  cases hanswer
  cases hcode

/-- A placement that is cancelled changed nothing, or was cancelled at its last poll and its
refusal recorded. -/
theorem applyLocked_cancelled {request : PlacementRequest} {options : ApplyOptions}
    {now : ClockReadings} (h : (applyLocked c request options now).exec m = (.error e, m'))
    (hcode : e.code = .cancelled) :
    m' = m ∨ options.cancel 0 = false ∧ m.state.findIdempotency request.requestId = none ∧
      ∃ planned auth,
        m.state.planLocked c.bounds request (options.cancel 1) (now 1) = .ok planned ∧
        planned.decision ≠ .refuse ∧
        m.state.authorizeChecks c.bounds planned.plan
          (effectiveOptions request options planned).allowReplacement (now 2) = .ok auth ∧
        options.cancel 2 = true ∧
        (recordRefusal c request.requestId (fingerprintOf c.bounds request)
          cancelledBeforeCommit (now 0)).exec m = (.ok (), m') := by
  unfold applyLocked at h
  rw [exec_bind, exec_check] at h
  by_cases hpoll : options.cancel 0 = false
  · rw [if_pos hpoll] at h
    simp only at h
    rw [exec_bind, exec_getState] at h
    simp only at h
    split at h
    · rw [exec_liftExcept] at h
      cases h
      exact .inl rfl
    · next hcached =>
        rw [exec_bind, exec_liftExcept] at h
        cases hplan : m.state.planLocked c.bounds request (options.cancel 1) (now 1) with
        | error e' =>
            rw [hplan] at h
            cases h
            exact .inl rfl
        | ok planned =>
            rw [hplan] at h
            simp only at h
            by_cases hrefuse : planned.decision = .refuse
            · rw [if_pos hrefuse] at h
              refine absurd hcode (Throws.of_exec (P := Error.Uncancelled) h ?_)
              exact .bind ((throws_recordRefusal _ _ _ _).mono fun _ h ↦ h.uncancelled) fun _ ↦
                .throw (FabricState.planLocked_uncancelled hplan)
            · rw [if_neg hrefuse] at h
              obtain ⟨m₁, hauth, hrecord⟩ := refusing_cancelled h hcode
              obtain ⟨rfl, rfl, hlast, auth, hchecks⟩ := authorizeLocked_cancelled hauth hcode
              exact .inr ⟨hpoll, cachedAnswer_eq_none.mp hcached, planned, auth, rfl, hrefuse,
                hchecks, hlast, hrecord⟩
  · rw [if_neg hpoll] at h
    cases h
    exact .inl rfl

/-- A placement cancelled at its last poll answers so once its refusal is recorded. -/
theorem exec_applyLocked_cancelled {request : PlacementRequest} {options : ApplyOptions}
    {now : ClockReadings} {planned : PlanResult} {auth : Authorization}
    (hpoll : options.cancel 0 = false)
    (hmiss : m.state.findIdempotency request.requestId = none)
    (hplan : m.state.planLocked c.bounds request (options.cancel 1) (now 1) = .ok planned)
    (hrefuse : planned.decision ≠ .refuse)
    (hchecks : m.state.authorizeChecks c.bounds planned.plan
      (effectiveOptions request options planned).allowReplacement (now 2) = .ok auth)
    (hlast : options.cancel 2 = true)
    (hrecord : (recordRefusal c request.requestId (fingerprintOf c.bounds request)
      cancelledBeforeCommit (now 0)).exec m = (.ok (), m')) :
    (applyLocked c request options now).exec m = (.error cancelledBeforeCommit, m') := by
  unfold applyLocked
  rw [exec_bind, exec_check, if_pos hpoll]
  simp only
  rw [exec_bind, exec_getState]
  simp only
  rw [cachedAnswer_eq_none.mpr hmiss]
  simp only
  rw [exec_bind, exec_liftExcept, hplan]
  simp only
  rw [if_neg hrefuse]
  unfold refusing
  rw [exec_tryCatch, exec_authorizeLocked_cancelled hchecks hlast]
  simp only
  rw [exec_bind, hrecord]
  rfl

/-- A plan to apply that is cancelled carried the cancellation or was answered so before, or was
cancelled at its poll and its refusal recorded. -/
theorem applyPlan_cancelled {planned : PlanResult} {options : ApplyOptions}
    {now : ClockReadings} (h : (applyPlan c planned options now).exec m = (.error e, m'))
    (hcode : e.code = .cancelled) :
    m.Accepting ∧
      (m' = m ∧ (planned.decision = .refuse ∧ planned.primaryReason = .cancelled ∨
          ∃ entry, m.state.findIdempotency options.requestId = some entry ∧
            entry.requestFingerprint = planned.plan.planDigest) ∨
        planned.decision ≠ .refuse ∧ m.state.findIdempotency options.requestId = none ∧
          (∃ auth, m.state.authorizeChecks c.bounds planned.plan
            (planOptions options planned).allowReplacement (now 0) = .ok auth) ∧
          options.cancel 0 = true ∧
          (recordRefusal c options.requestId planned.plan.planDigest cancelledBeforeCommit
            (now 1)).exec m = (.ok (), m')) := by
  unfold applyPlan at h
  obtain ⟨haccepting, h⟩ := accepting_of_cancelled h hcode
  refine ⟨haccepting, ?_⟩
  rw [exec_bind, exec_check] at h
  by_cases hrefuse : planned.decision ≠ .refuse
  · rw [if_pos hrefuse] at h
    simp only at h
    rw [exec_bind, exec_getState] at h
    simp only at h
    split at h
    · next cached hcached =>
        rw [exec_liftExcept] at h
        obtain ⟨hanswer, rfl⟩ := Prod.mk.inj h
        exact .inl ⟨rfl, .inr (cachedAnswer_cancelled hcached hanswer hcode)⟩
    · next hcached =>
        obtain ⟨m₁, hauth, hrecord⟩ := refusing_cancelled h hcode
        obtain ⟨rfl, rfl, hlast, hchecks⟩ := authorizeLocked_cancelled hauth hcode
        exact .inr ⟨hrefuse, cachedAnswer_eq_none.mp hcached, hchecks, hlast, hrecord⟩
  · rw [if_neg hrefuse] at h
    cases h
    exact .inl ⟨rfl, .inl ⟨not_not.mp hrefuse, hcode⟩⟩

/-- A plan to apply that is cancelled at its poll answers so once its refusal is recorded. -/
theorem exec_applyPlan_cancelled {planned : PlanResult} {options : ApplyOptions}
    {now : ClockReadings} {auth : Authorization} (haccepting : m.Accepting)
    (hrefuse : planned.decision ≠ .refuse)
    (hmiss : m.state.findIdempotency options.requestId = none)
    (hchecks : m.state.authorizeChecks c.bounds planned.plan
      (planOptions options planned).allowReplacement (now 0) = .ok auth)
    (hlast : options.cancel 0 = true)
    (hrecord : (recordRefusal c options.requestId planned.plan.planDigest cancelledBeforeCommit
      (now 1)).exec m = (.ok (), m')) :
    (applyPlan c planned options now).exec m = (.error cancelledBeforeCommit, m') := by
  unfold applyPlan
  rw [exec_accepting haccepting, exec_bind, exec_check, if_pos hrefuse]
  simp only
  rw [exec_bind, exec_getState]
  simp only
  rw [cachedAnswer_eq_none.mpr hmiss]
  simp only
  unfold refusing
  rw [exec_tryCatch, exec_authorizeLocked_cancelled hchecks hlast]
  simp only
  rw [exec_bind, hrecord]
  rfl

/-- A revocation that is cancelled changed nothing: it was answered so before, or it is the first
of an assignment that is not revoked. -/
theorem revoke_unchanged {request : RevokeRequest} {now : ClockReadings}
    (h : (revoke c request now).exec m = (.error e, m')) (hcode : e.code = .cancelled) :
    m.Accepting ∧ m' = m ∧
      ((∃ entry, m.state.findIdempotency request.requestId = some entry ∧
          entry.requestFingerprint = request.fingerprint) ∨
        m.state.findIdempotency request.requestId = none ∧
          ∃ r, m.state.assignments.find? request.assignment = some r ∧ r.state ≠ .revoked) := by
  unfold revoke at h
  obtain ⟨haccepting, h⟩ := accepting_of_cancelled h hcode
  refine ⟨haccepting, ?_⟩
  rw [exec_bind, exec_getState] at h
  simp only at h
  split at h
  · next cached hcached =>
      rw [exec_liftExcept] at h
      obtain ⟨hanswer, rfl⟩ := Prod.mk.inj h
      exact ⟨rfl, .inl (cachedAnswer_cancelled hcached hanswer hcode)⟩
  · next hcached =>
      have hmiss := cachedAnswer_eq_none.mp hcached
      rw [exec_bind] at h
      cases hfind : m.state.assignments.find? request.assignment with
      | none =>
          rw [hfind] at h
          cases h
          cases hcode
      | some r =>
          rw [hfind, exec_found_some] at h
          simp only at h
          by_cases hrevoked : r.state = .revoked
          · rw [if_pos hrevoked] at h
            cases h
          · suffices hm : m' = m from ⟨hm, .inr ⟨hmiss, r, rfl, hrevoked⟩⟩
            rw [if_neg hrevoked, exec_bind, exec_check] at h
            by_cases hpoll : request.cancel 0 = false
            · rw [if_pos hpoll] at h
              simp only at h
              rw [exec_bind, exec_liftExcept] at h
              cases hchecks : m.state.revocationChecks request r (now 0) with
              | error e' =>
                  rw [hchecks] at h
                  cases h
                  rfl
              | ok u =>
                  rw [hchecks] at h
                  refine absurd hcode (Throws.of_exec (P := Error.Plain) h ?_).uncancelled
                  exact .bind (throws_storeAssignment _ _ _ _ _) fun _ ↦ .pure _
            · rw [if_neg hpoll] at h
              cases h
              rfl

/-- A re-authorization that is cancelled was answered so before. -/
theorem reauthorize_cancelled {request : ReauthorizeRequest} {now : ClockReadings}
    (h : (reauthorize c request now).exec m = (.error e, m')) (hcode : e.code = .cancelled) :
    m' = m ∧ ∃ entry, m.state.findIdempotency request.requestId = some entry ∧
      entry.requestFingerprint = request.fingerprint := by
  unfold reauthorize at h
  obtain ⟨-, h⟩ := accepting_of_cancelled h hcode
  rw [exec_bind, exec_getState] at h
  simp only at h
  split at h
  · next cached hcached =>
      rw [exec_liftExcept] at h
      obtain ⟨hanswer, rfl⟩ := Prod.mk.inj h
      exact ⟨rfl, cachedAnswer_cancelled hcached hanswer hcode⟩
  · refine absurd hcode (Throws.of_exec (P := Error.Uncancelled) h ?_)
    exact .bind (.found ReasonCode.noConfusion) fun r ↦ .ite (.pure _) <|
      .bind (.liftExcept (FabricState.fails_reauthorizationChecks _ _)) fun _ ↦
        .bind ((throws_issue FabricState.fails_issueLease).mono fun _ h ↦ h.uncancelled) fun _ ↦
          .bind ((throws_issue FabricState.fails_issueAttempt).mono fun _ h ↦ h.uncancelled) fun _ ↦
            .bind ((throws_issue FabricState.fails_issueFence).mono fun _ h ↦ h.uncancelled) fun _ ↦
              .bind ((throws_storeAssignment _ _ _ _ _).mono fun _ h ↦ h.uncancelled) fun _ ↦
                .pure _

/-! ## Revalidations -/

private theorem throws_revalidateOne (now : Micros) (id : AssignmentId)
    (report : RevalidationReport) :
    Throws Error.Plain (revalidateOne c now id report) := by
  unfold revalidateOne
  refine .bind throws_getState fun s ↦ ?_
  split
  · exact .pure _
  · refine .ite (.pure _) ?_
    split
    · exact .pure _
    · exact .bind (throws_storeAssignment _ _ _ _ _) fun _ ↦ .pure _

theorem exec_revalidateLoop_never (now : Micros) (polls : Nat)
    (report : RevalidationReport) (id : AssignmentId) (ids : List AssignmentId) (m : Impl) :
    (revalidateLoop c now .never polls report (id :: ids)).exec m =
      (revalidateOne c now id report >>= fun report ↦
        revalidateLoop c now .never (polls + 1) report ids).exec m := by
  have hpoll : CancelToken.never polls = false := rfl
  rw [revalidateLoop, exec_bind, exec_check, if_pos hpoll]

/-- A loop that is cancelled is the uncancelled loop up to the poll that was set. -/
theorem revalidateLoop_cancelled {now : Micros} {cancel : CancelToken} {polls : Nat}
    {report : RevalidationReport} {ids : List AssignmentId}
    (h : (revalidateLoop c now cancel polls report ids).exec m = (.error e, m'))
    (hcode : e.code = .cancelled) :
    ∃ k < ids.length, cancel (polls + k) = true ∧ (∀ j < k, cancel (polls + j) = false) ∧
      ∃ report', (revalidateLoop c now .never polls report (ids.take k)).exec m =
        (.ok report', m') := by
  induction ids generalizing m polls report with
  | nil => cases h
  | cons id ids ih =>
      unfold revalidateLoop at h
      rw [exec_bind, exec_check] at h
      by_cases hpoll : cancel polls = false
      · rw [if_pos hpoll] at h
        simp only at h
        rw [exec_bind] at h
        cases hone : (revalidateOne c now id report).exec m with
        | mk answer m₁ =>
            rw [hone] at h
            cases answer with
            | error e' =>
                cases h
                exact absurd hcode (Throws.of_exec hone
                  (throws_revalidateOne now id report)).uncancelled
            | ok report₁ =>
                obtain ⟨k, hk, hset, hclear, report', hloop⟩ := ih h
                refine ⟨k + 1, by simpa using hk, by rwa [Nat.add_right_comm] at hset,
                  fun j hj ↦ ?_, report', ?_⟩
                · cases j with
                  | zero => exact hpoll
                  | succ j =>
                      rw [← Nat.add_assoc, Nat.add_right_comm]
                      exact hclear j (by omega)
                · rw [List.take_succ_cons, exec_revalidateLoop_never, exec_bind, hone]
                  exact hloop
      · rw [if_neg hpoll] at h
        cases h
        exact ⟨0, by simp, Bool.not_eq_false _ ▸ hpoll, fun j hj ↦ absurd hj (by omega), report,
          rfl⟩

/-- A loop whose token is first set at a poll stops there, behind what it visited. -/
theorem exec_revalidateLoop_cancelled {now : Micros} {cancel : CancelToken} {polls k : Nat}
    {report report' : RevalidationReport} {ids : List AssignmentId} (hk : k < ids.length)
    (hset : cancel (polls + k) = true) (hclear : ∀ j < k, cancel (polls + j) = false)
    (h : (revalidateLoop c now .never polls report (ids.take k)).exec m = (.ok report', m')) :
    (revalidateLoop c now cancel polls report ids).exec m =
      (.error ⟨.cancelled, "revalidation cancelled"⟩, m') := by
  induction ids generalizing m polls report k with
  | nil => cases hk
  | cons id ids ih =>
      unfold revalidateLoop
      rw [exec_bind, exec_check]
      cases k with
      | zero =>
          rw [Nat.add_zero] at hset
          rw [if_neg (by rw [hset]; decide)]
          cases h
          rfl
      | succ k =>
          have hpoll : cancel polls = false := hclear 0 (by omega)
          rw [if_pos hpoll]
          simp only
          rw [List.take_succ_cons, exec_revalidateLoop_never, exec_bind] at h
          rw [exec_bind]
          cases hone : (revalidateOne c now id report).exec m with
          | mk answer m₁ =>
              rw [hone] at h
              cases answer with
              | error e' => cases h
              | ok report₁ =>
                  refine ih (k := k) (by simpa using hk) ?_ (fun j hj ↦ ?_) h
                  · rwa [Nat.add_right_comm]
                  · rw [Nat.add_right_comm]
                    exact hclear (j + 1) (by omega)

/-- Nothing is to be done for the assignment of an identifier. -/
def NotDue (c : FabricConfig) (now : Micros) (m : Impl) (id : AssignmentId) : Prop :=
  ∀ r, m.state.assignments.find? id = some r → m.state.revalidated c.bounds r now = none

theorem revalidateOne_notDue {now : Micros} {id : AssignmentId} {report : RevalidationReport}
    (h : NotDue c now m id) :
    ∃ report', (revalidateOne c now id report).exec m = (.ok report', m) ∧
      report'.moved = report.moved := by
  unfold revalidateOne
  rw [exec_bind, exec_getState]
  simp only
  cases hr : m.state.assignments.find? id with
  | none => exact ⟨report, rfl, rfl⟩
  | some r =>
    simp only [h r hr]
    split
    · exact ⟨report, rfl, rfl⟩
    · exact ⟨report.count none, rfl, report.moved_count_none⟩

/-- A loop over assignments of which none is due leaves the runtime, however it ends. -/
theorem revalidateLoop_notDue {now : Micros} {cancel : CancelToken} {polls : Nat}
    {report : RevalidationReport} {ids : List AssignmentId}
    (h : ∀ id ∈ ids, NotDue c now m id) :
    ((revalidateLoop c now cancel polls report ids).exec m).2 = m := by
  induction ids generalizing polls report with
  | nil => rfl
  | cons id ids ih =>
    unfold revalidateLoop
    rw [exec_bind, exec_check]
    by_cases hpoll : cancel polls = false
    · obtain ⟨report', hone, -⟩ :
          ∃ report', (revalidateOne c now id report).exec m = (.ok report', m) ∧
            report'.moved = report.moved := revalidateOne_notDue (h id List.mem_cons_self)
      rw [if_pos hpoll]
      simp only
      rw [exec_bind, hone]
      exact ih fun id' hid' ↦ h id' (List.mem_cons_of_mem _ hid')
    · rw [if_neg hpoll]

/-- An idle loop that nothing cancels counts no assignment as moved. -/
theorem revalidateLoop_notDue_report {now : Micros} {polls : Nat} {report : RevalidationReport}
    {ids : List AssignmentId} (h : ∀ id ∈ ids, NotDue c now m id) :
    ∃ report', (revalidateLoop c now .never polls report ids).exec m = (.ok report', m) ∧
      report'.moved = report.moved := by
  induction ids generalizing polls report with
  | nil => exact ⟨report, rfl, rfl⟩
  | cons id ids ih =>
    obtain ⟨report₁, hone, hmoved₁⟩ := revalidateOne_notDue (h id List.mem_cons_self)
    obtain ⟨report', hloop, hmoved⟩ :=
      @ih (polls + 1) report₁ fun id' hid' ↦ h id' (List.mem_cons_of_mem _ hid')
    refine ⟨report', ?_, hmoved.trans hmoved₁⟩
    rw [exec_revalidateLoop_never, exec_bind, hone]
    exact hloop

/-- A revalidation that is cancelled changed nothing, or was cancelled behind a change. -/
theorem revalidate_cancelled {cancel : CancelToken} {now : Micros}
    (h : (revalidate c cancel now).exec m = (.error e, m')) (hcode : e.code = .cancelled) :
    m.running = true ∧ ∃ k < m.state.liveIds.length, cancel k = true ∧
      (∀ j < k, cancel j = false) ∧
      ∃ report, (revalidateLoop c now .never 0 {} (m.state.liveIds.take k)).exec m =
        (.ok report, m') := by
  unfold revalidate at h
  rw [exec_bind, exec_get] at h
  simp only at h
  rw [exec_bind, exec_check] at h
  by_cases hrun : m.running = true
  · rw [if_pos hrun] at h
    simp only at h
    unfold revalidateLocked at h
    rw [exec_bind, exec_getState] at h
    simp only at h
    rw [exec_bind] at h
    cases hloop : (revalidateLoop c now cancel 0 {} m.state.liveIds).exec m with
    | mk answer m₁ =>
        rw [hloop] at h
        cases answer with
        | ok report => cases h
        | error e' =>
            cases h
            obtain ⟨k, hk, hset, hclear, report, hloop⟩ := revalidateLoop_cancelled hloop hcode
            rw [Nat.zero_add] at hset
            refine ⟨hrun, k, hk, hset, fun j hj ↦ ?_, report, hloop⟩
            have hj := hclear j hj
            rwa [Nat.zero_add] at hj
  · rw [if_neg hrun] at h
    cases h
    cases hcode

/-- A revalidation whose token is first set at a poll answers so, behind what it visited. -/
theorem exec_revalidate_cancelled {cancel : CancelToken} {now : Micros} {k : Nat}
    {report : RevalidationReport} (hrun : m.running = true) (hk : k < m.state.liveIds.length)
    (hset : cancel k = true) (hclear : ∀ j < k, cancel j = false)
    (h : (revalidateLoop c now .never 0 {} (m.state.liveIds.take k)).exec m = (.ok report, m')) :
    (revalidate c cancel now).exec m = (.error ⟨.cancelled, "revalidation cancelled"⟩, m') := by
  have hset' : cancel (0 + k) = true := by rwa [Nat.zero_add]
  have hclear' : ∀ j < k, cancel (0 + j) = false := fun j hj ↦ by
    rw [Nat.zero_add]
    exact hclear j hj
  have hloop := exec_revalidateLoop_cancelled hk hset' hclear' h
  unfold revalidate
  rw [exec_bind, exec_get]
  simp only
  rw [exec_bind, exec_check, if_pos hrun]
  simp only
  unfold revalidateLocked
  rw [exec_bind, exec_getState]
  simp only
  rw [exec_bind, hloop]

end Fabric

end OffloadFabric
