import OffloadFabric.Fabric.Cancellation

/-!
# Cancellation

When an operation whose token is set returns `Cancelled`, and what it leaves behind then:
`include/nof/cancel.hpp:7-12` promises that nothing is published.
-/

namespace OffloadFabric

open Lib Lib.Fallible FabricM

/-- The cancel token of an operation that carries one. -/
def Op.cancel : Op → Option CancelToken
  | .apply _ options | .applyPlan _ options => some options.cancel
  | .replace request => some request.cancel
  | .revoke request => some request.cancel
  | .reauthorize request => some request.cancel
  | .revalidate cancel => some cancel
  | _ => none

/-- The request of an operation was recorded before, with the same payload. -/
def Op.Duplicate (c : FabricConfig) (s : FabricState) (op : Op) : Prop :=
  ∃ k entry, op.lookup c s = some k ∧ s.findIdempotency k.1 = some entry ∧
    entry.requestFingerprint = k.2

/-- The same runtime, apart from the faults that its durable calls meet next. -/
def Impl.Like (m m' : Impl) : Prop := ∃ faults, m' = m.facing faults

/-- The step left no trace: the state and what the log recovers are as before, and so is what
every later step does. -/
structure Step.Untraced (c : FabricConfig) (m : Impl) (st : Step) : Prop where
  state : (st.next c m).state = m.state
  log : m.log.Same (st.next c m).log
  later : ∀ later : Step, later.exec c (st.next c m) = later.exec c m

/-- A cancelled step publishes nothing: with the token set from the start it returns `Cancelled`,
unless it is a duplicate, and where it returns `Cancelled` it left no trace. -/
structure Step.CancelsCleanly (c : FabricConfig) (m : Impl) (st : Step) : Prop where
  prompt : ∀ cancel, st.op.cancel = some cancel → (∀ n, cancel n = true) →
    ¬ st.op.Duplicate c m.state → ∃ e, (st.exec c m).1 = .error e ∧ e.code = .cancelled
  untraced : ∀ e, (st.exec c m).1 = .error e → e.code = .cancelled → st.Untraced c m

/-! ## Which cancellations leave a trace -/

namespace Op

/-- A placement goes past its first check: the first poll of one that plans, the decision of a
plan to apply. -/
def Proceeds : Op → Prop
  | .apply _ options => options.cancel 0 = false
  | .applyPlan planned _ => planned.decision ≠ .refuse
  | .replace request => request.cancel 0 = false
  | _ => False

/-- The polls before the one that stands ahead of the commit. -/
def lastPoll : Op → Nat
  | .applyPlan _ _ => 0
  | _ => 2

/-- The clock reading that a recorded refusal carries. -/
def refusedAt (now : ClockReadings) : Op → Micros
  | .applyPlan _ _ => now 1
  | _ => now 0

end Op

/-- A call whose token is set from the start comes to a poll of it: nothing before it answers. -/
inductive Step.ReachesPoll (c : FabricConfig) (m : Impl) (st : Step) : Prop
  | apply {request : PlacementRequest} {options : ApplyOptions}
      (hop : st.op = .apply request options) (haccepting : m.Accepting)
  | replace {request : ReplaceRequest} {r : AssignmentRecord} (hop : st.op = .replace request)
      (haccepting : m.Accepting) (hfind : m.state.assignments.find? request.current = some r)
  /-- The poll of a plan to apply stands behind every check, and its refusal is recorded. -/
  | applyPlan {planned : PlanResult} {options : ApplyOptions} {auth : Authorization} {m' : Impl}
      (hop : st.op = .applyPlan planned options) (haccepting : m.Accepting)
      (hrefuse : planned.decision ≠ .refuse)
      (hmiss : m.state.findIdempotency options.requestId = none)
      (hchecks : m.state.authorizeChecks c.bounds planned.plan
        (Fabric.planOptions options planned).allowReplacement (st.now 0) = .ok auth)
      (hrecord : (Fabric.recordRefusal c options.requestId planned.plan.planDigest
        cancelledBeforeCommit (st.now 1)).exec (m.facing st.faults) = (.ok (), m'))
  /-- A plan that was refused for a cancellation answers with it. -/
  | refused {planned : PlanResult} {options : ApplyOptions}
      (hop : st.op = .applyPlan planned options) (haccepting : m.Accepting)
      (hrefuse : planned.decision = .refuse) (hreason : planned.primaryReason = .cancelled)
  | revoke {request : RevokeRequest} {r : AssignmentRecord} (hop : st.op = .revoke request)
      (haccepting : m.Accepting) (hmiss : m.state.findIdempotency request.requestId = none)
      (hfind : m.state.assignments.find? request.assignment = some r)
      (hstate : r.state ≠ .revoked)
  | revalidate {cancel : CancelToken} (hop : st.op = .revalidate cancel)
      (hrun : m.running = true) (hlive : m.state.liveIds ≠ [])

/-- A placement that is cancelled at its last poll and whose refusal is recorded for its
request, so that every later delivery of the request is answered with it. -/
structure Step.RecordsRefusal (c : FabricConfig) (m : Impl) (st : Step) : Prop where
  accepting : m.Accepting
  missed : st.op.Missed c m.state
  proceeds : st.op.Proceeds
  authorized : ∃ p options auth t, Authorized c st.now m.state st.op p options auth t ∧
    options.cancel st.op.lastPoll = true
  recorded : ∃ k m', st.op.lookup c m.state = some k ∧ k.1 ≠ .empty ∧
    (Fabric.recordRefusal c k.1 k.2 cancelledBeforeCommit (st.op.refusedAt st.now)).exec
      (m.facing st.faults) = (.ok (), m') ∧ ¬ m.Like m'

/-- A revalidation that is cancelled behind an assignment that it had to suspend or degrade. -/
structure Step.LeavesRevalidated (c : FabricConfig) (m : Impl) (st : Step) : Prop where
  running : m.running = true
  cancelled : ∃ cancel k, st.op = .revalidate cancel ∧ k < m.state.liveIds.length ∧
    cancel k = true ∧ (∀ j < k, cancel j = false) ∧
    (∃ id ∈ m.state.liveIds.take k, ∃ r, m.state.assignments.find? id = some r ∧
      m.state.revalidated c.bounds r (st.now 0) ≠ none) ∧
    ∃ report m', (Fabric.revalidateLoop c (st.now 0) .never 0 {} (m.state.liveIds.take k)).exec
      (m.facing st.faults) = (.ok report, m') ∧ ¬ m.Like m'

/-! ## Steps -/

section

variable {c : FabricConfig} {m m' : Impl} {st : Step} {e : Error}

theorem Impl.accepting_facing (m : Impl) (faults : List Fault) :
    (m.facing faults).Accepting ↔ m.Accepting :=
  ⟨fun h ↦ ⟨h.running, h.accepted⟩, fun h ↦ ⟨h.running, h.accepted⟩⟩

/-- A revalidation whose token is set from the start changes nothing. -/
theorem Fabric.revalidate_idle (c : FabricConfig) (now : Micros) (m : Impl) :
    ((Fabric.revalidate c (fun _ ↦ true) now).exec m).2 = m := by
  unfold Fabric.revalidate Fabric.revalidateLocked
  rw [exec_bind, exec_get]
  simp only
  rw [exec_bind, exec_check]
  by_cases hrun : m.running = true
  · rw [if_pos hrun]
    simp only
    rw [exec_bind, exec_getState]
    simp only
    cases m.state.liveIds with
    | nil => rfl
    | cons id ids => rfl
  · rw [if_neg hrun]

/-- A step leaves no trace exactly when it leaves the same runtime, apart from faults. -/
theorem Step.untraced_iff : st.Untraced c m ↔ m.Like (st.next c m) := by
  constructor
  · intro h
    -- what a step that changes nothing leaves of both runtimes tells them apart
    let idle : Step := ⟨.revalidate fun _ ↦ true, fun _ ↦ 0, []⟩
    have hidle : ∀ m : Impl, idle.next c m = m.facing [] := by
      intro m
      have hkeeps := Fabric.revalidate_idle c 0 (m.facing [])
      unfold Step.next Step.exec Op.program
      rw [exec_bind]
      generalize (Fabric.revalidate c (fun _ ↦ true) 0).exec (m.facing []) = out at hkeeps
      obtain ⟨answer, m₁⟩ := out
      cases answer with
      | ok report => exact hkeeps
      | error e => exact hkeeps
    have hnext : idle.next c (st.next c m) = idle.next c m := congrArg Prod.snd (h.later idle)
    rw [hidle, hidle] at hnext
    have hfacing : ((st.next c m).facing []).facing (st.next c m).log.faults =
        (m.facing []).facing (st.next c m).log.faults := by
      rw [hnext]
    exact ⟨(st.next c m).log.faults, hfacing⟩
  · rintro ⟨faults, h⟩
    refine ⟨?_, ?_, fun later ↦ ?_⟩
    · rw [h]
      rfl
    · rw [h]
      exact m.facing_same faults
    · rw [h]
      rfl

/-- What a placement leaves that is cancelled behind the checks of its operation. -/
private theorem traced_of_applyLocked {request : PlacementRequest} {options : ApplyOptions}
    (haccepting : m.Accepting)
    (hk : st.op.lookup c m.state = some (request.requestId, fingerprintOf c.bounds request))
    (hplan : st.op.authorization c st.now m.state =
      Op.placement c st.now m.state request options)
    (hproceeds : options.cancel 0 = false → st.op.Proceeds) (hlast : st.op.lastPoll = 2)
    (hat : st.op.refusedAt st.now = st.now 0)
    (h : (Fabric.applyLocked c request options st.now).exec (m.facing st.faults) =
      (.error e, m')) (hcode : e.code = .cancelled) :
    m.Like m' ∨ st.RecordsRefusal c m := by
  rcases Fabric.applyLocked_cancelled h hcode with
    hm | ⟨hpoll, hmiss, planned, auth, hplanned, hrefuse, hchecks, hset, hrecord⟩
  · exact .inl ⟨st.faults, hm⟩
  · by_cases hlike : m.Like m'
    · exact .inl hlike
    · refine .inr ⟨haccepting, fun k hk' ↦ ?_, hproceeds hpoll, ?_, ?_⟩
      · rw [hk, Option.mem_def, Option.some.injEq] at hk'
        rw [← hk']
        exact hmiss
      · refine ⟨_, _, auth, st.now 2, ⟨?_, hchecks⟩, by rw [hlast]; exact hset⟩
        rw [hplan]
        unfold Op.placement
        rw [Impl.facing_state] at hplanned
        rw [hplanned]
        simp only [if_neg hrefuse]
      · refine ⟨_, m', hk, fun hid ↦ hlike ?_, by rw [hat]; exact hrecord, hlike⟩
        unfold Fabric.recordRefusal at hrecord
        rw [if_neg (not_not.mpr hid)] at hrecord
        cases hrecord
        exact ⟨st.faults, rfl⟩

private theorem traced_of_replace {request : ReplaceRequest} (hop : st.op = .replace request)
    (h : (Fabric.replace c request st.now).exec (m.facing st.faults) = (.error e, m'))
    (hcode : e.code = .cancelled) : m.Like m' ∨ st.RecordsRefusal c m := by
  unfold Fabric.replace at h
  obtain ⟨haccepting, h⟩ := Fabric.accepting_of_cancelled h hcode
  rw [exec_bind, exec_getState] at h
  simp only at h
  rw [exec_bind, Impl.facing_state] at h
  cases hfind : m.state.assignments.find? request.current with
  | none =>
      rw [hfind] at h
      cases h
      cases hcode
  | some current =>
      rw [hfind, exec_found_some] at h
      refine traced_of_applyLocked ((m.accepting_facing _).mp haccepting) ?_ ?_ ?_ ?_ ?_ h hcode
      · rw [hop, Op.lookup, hfind]
        rfl
      · rw [hop, Op.authorization]
        simp only [hfind]
      · rw [hop]
        exact id
      · rw [hop]
        rfl
      · rw [hop]
        rfl

private theorem traced_of_applyPlan {planned : PlanResult} {options : ApplyOptions}
    (hop : st.op = .applyPlan planned options)
    (h : (Fabric.applyPlan c planned options st.now).exec (m.facing st.faults) = (.error e, m'))
    (hcode : e.code = .cancelled) : m.Like m' ∨ st.RecordsRefusal c m := by
  obtain ⟨haccepting, ⟨hm, -⟩ | ⟨hrefuse, hmiss, ⟨auth, hchecks⟩, hset, hrecord⟩⟩ :=
    Fabric.applyPlan_cancelled h hcode
  · exact .inl ⟨st.faults, hm⟩
  · by_cases hlike : m.Like m'
    · exact .inl hlike
    · have hk : st.op.lookup c m.state = some (options.requestId, planned.plan.planDigest) := by
        rw [hop]
        rfl
      refine .inr ⟨(m.accepting_facing _).mp haccepting, fun k hk' ↦ ?_, ?_, ?_, ?_⟩
      · rw [hk, Option.mem_def, Option.some.injEq] at hk'
        rw [← hk']
        exact hmiss
      · rw [hop]
        exact hrefuse
      · refine ⟨_, _, auth, st.now 0, ⟨?_, hchecks⟩, ?_⟩
        · rw [hop]
          rfl
        · rw [hop]
          exact hset
      · refine ⟨_, m', hk, fun hid ↦ hlike ?_, ?_, hlike⟩
        · unfold Fabric.recordRefusal at hrecord
          rw [if_neg (not_not.mpr hid)] at hrecord
          cases hrecord
          exact ⟨st.faults, rfl⟩
        · rw [hop]
          exact hrecord

private theorem traced_of_revalidate {cancel : CancelToken} (hop : st.op = .revalidate cancel)
    (h : (Fabric.revalidate c cancel (st.now 0)).exec (m.facing st.faults) = (.error e, m'))
    (hcode : e.code = .cancelled) : m.Like m' ∨ st.LeavesRevalidated c m := by
  obtain ⟨hrun, k, hk, hset, hclear, report, hloop⟩ := Fabric.revalidate_cancelled h hcode
  by_cases hlike : m.Like m'
  · exact .inl hlike
  · refine .inr ⟨hrun, cancel, k, hop, hk, hset, hclear, ?_, report, m', hloop, hlike⟩
    by_contra hdue
    have hsame : ((Fabric.revalidateLoop c (st.now 0) .never 0 {}
        ((m.facing st.faults).state.liveIds.take k)).exec (m.facing st.faults)).2 =
          m.facing st.faults := by
      refine Fabric.revalidateLoop_notDue fun id hid r hr ↦ ?_
      by_contra hsome
      exact hdue ⟨id, hid, r, hr, hsome⟩
    rw [hloop] at hsame
    exact hlike ⟨st.faults, hsame⟩

/-- The error of an operation on assignments is that of its program. -/
private theorem program_of_exec {x : FabricM AssignmentRecord} (he : (st.exec c m).1 = .error e)
    (hx : st.op.program c st.now = some <$> x) :
    x.exec (m.facing st.faults) = (.error e, st.next c m) := by
  unfold Step.next
  unfold Step.exec at he ⊢
  rw [hx, exec_map] at he ⊢
  generalize x.exec (m.facing st.faults) = out at he ⊢
  obtain ⟨answer, m₁⟩ := out
  cases answer with
  | ok r => cases he
  | error e' =>
      cases he
      rfl

private theorem revalidate_of_exec {cancel : CancelToken} (he : (st.exec c m).1 = .error e)
    (hop : st.op = .revalidate cancel) :
    (Fabric.revalidate c cancel (st.now 0)).exec (m.facing st.faults) =
      (.error e, st.next c m) := by
  unfold Step.next
  unfold Step.exec at he ⊢
  rw [hop] at he ⊢
  unfold Op.program at he ⊢
  rw [exec_bind] at he ⊢
  generalize (Fabric.revalidate c cancel (st.now 0)).exec (m.facing st.faults) = out at he ⊢
  obtain ⟨answer, m₁⟩ := out
  cases answer with
  | ok report => cases he
  | error e' =>
      cases he
      rfl

/-- A step that returns `Cancelled` leaves no trace, but for a recorded refusal and for what a
revalidation had changed. -/
theorem Step.untraced_or (hcancel : st.op.cancel ≠ none) (he : (st.exec c m).1 = .error e)
    (hcode : e.code = .cancelled) :
    m.Like (st.next c m) ∨ st.RecordsRefusal c m ∨ st.LeavesRevalidated c m := by
  cases hop : st.op with
  | apply request options =>
      have h := program_of_exec (x := Fabric.apply c request options st.now) he (by rw [hop]; rfl)
      unfold Fabric.apply at h
      obtain ⟨haccepting, h⟩ := Fabric.accepting_of_cancelled h hcode
      refine Or.imp_right .inl (traced_of_applyLocked
        ((m.accepting_facing _).mp haccepting) ?_ ?_ ?_ ?_ ?_ h hcode)
      · rw [hop]
        rfl
      · rw [hop]
        rfl
      · rw [hop]
        exact id
      · rw [hop]
        rfl
      · rw [hop]
        rfl
  | applyPlan planned options =>
      exact Or.imp_right .inl
        (traced_of_applyPlan hop (program_of_exec he (by rw [hop]; rfl)) hcode)
  | replace request =>
      exact Or.imp_right .inl
        (traced_of_replace hop (program_of_exec he (by rw [hop]; rfl)) hcode)
  | revoke request =>
      have h := program_of_exec (x := Fabric.revoke c request st.now) he (by rw [hop]; rfl)
      exact .inl ⟨st.faults, (Fabric.revoke_unchanged h hcode).2.1⟩
  | reauthorize request =>
      have h := program_of_exec (x := Fabric.reauthorize c request st.now) he (by rw [hop]; rfl)
      exact .inl ⟨st.faults, (Fabric.reauthorize_cancelled h hcode).1⟩
  | revalidate cancel =>
      exact Or.imp_right .inr (traced_of_revalidate hop (revalidate_of_exec he hop) hcode)
  | _ =>
      rw [hop] at hcancel
      exact absurd rfl hcancel

private theorem exec_placement {request : PlacementRequest} {options : ApplyOptions}
    {p : AssignmentPlan} {options' : ApplyOptions} {auth : Authorization} {t : Micros}
    (hplan : Op.placement c st.now m.state request options = some (p, options', t))
    (hchecks : m.state.authorizeChecks c.bounds p options'.allowReplacement t = .ok auth)
    (hset : options'.cancel 2 = true) (hpoll : options.cancel 0 = false)
    (hmiss : m.state.findIdempotency request.requestId = none)
    (hrecord : (Fabric.recordRefusal c request.requestId (fingerprintOf c.bounds request)
      cancelledBeforeCommit (st.now 0)).exec (m.facing st.faults) = (.ok (), m')) :
    (Fabric.applyLocked c request options st.now).exec (m.facing st.faults) =
      (.error cancelledBeforeCommit, m') := by
  unfold Op.placement at hplan
  cases hplanned : m.state.planLocked c.bounds request (options.cancel 1) (st.now 1) with
  | error e =>
      rw [hplanned] at hplan
      cases hplan
  | ok planned =>
      rw [hplanned] at hplan
      simp only at hplan
      by_cases hrefuse : planned.decision = .refuse
      · rw [if_pos hrefuse] at hplan
        cases hplan
      · rw [if_neg hrefuse] at hplan
        cases hplan
        exact Fabric.exec_applyLocked_cancelled hpoll hmiss hplanned hrefuse hchecks hset hrecord

private theorem exec_of_program {x : FabricM AssignmentRecord}
    (hx : st.op.program c st.now = some <$> x)
    (h : x.exec (m.facing st.faults) = (.error e, m')) : st.exec c m = (.error e, m') := by
  unfold Step.exec
  rw [hx, exec_map, h]
  rfl

/-- A step that records its refusal returns `Cancelled` and leaves the record. -/
theorem Step.RecordsRefusal.exec (h : st.RecordsRefusal c m) :
    ∃ m', st.exec c m = (.error cancelledBeforeCommit, m') ∧ ¬ m.Like m' := by
  obtain ⟨haccepting, hmissed, hproceeds, ⟨p, options, auth, t, ⟨hasked, hchecks⟩, hset⟩,
    k, m', hk, -, hrecord, hlike⟩ := h
  have hmiss := hmissed k hk
  have haccepting' := (m.accepting_facing st.faults).mpr haccepting
  refine ⟨m', ?_, hlike⟩
  cases hop : st.op with
  | apply request options₀ =>
      rw [hop] at hproceeds hasked hset hk hrecord
      cases hk
      refine exec_of_program (x := Fabric.apply c request options₀ st.now) (by rw [hop]; rfl) ?_
      unfold Fabric.apply
      rw [Fabric.exec_accepting haccepting']
      exact exec_placement hasked hchecks hset hproceeds hmiss hrecord
  | applyPlan planned options₀ =>
      rw [hop] at hproceeds hasked hset hk hrecord
      cases hk
      cases hasked
      exact exec_of_program (x := Fabric.applyPlan c planned options₀ st.now) (by rw [hop]; rfl)
        (Fabric.exec_applyPlan_cancelled haccepting' hproceeds hmiss hchecks hset hrecord)
  | replace request =>
      rw [hop] at hproceeds hasked hset hk hrecord
      cases hfind : m.state.assignments.find? request.current with
      | none =>
          simp only [Op.lookup, hfind] at hk
          cases hk
      | some current =>
          simp only [Op.lookup, hfind] at hk
          simp only [Op.authorization, hfind] at hasked
          cases hk
          refine exec_of_program (x := Fabric.replace c request st.now) (by rw [hop]; rfl) ?_
          unfold Fabric.replace
          rw [Fabric.exec_accepting haccepting', exec_bind, exec_getState]
          simp only
          rw [exec_bind, Impl.facing_state, hfind, exec_found_some]
          exact exec_placement hasked hchecks hset hproceeds hmiss hrecord
  | _ =>
      rw [hop] at hproceeds
      exact hproceeds.elim

private theorem exec_revalidate {cancel : CancelToken} (hop : st.op = .revalidate cancel)
    (h : (Fabric.revalidate c cancel (st.now 0)).exec (m.facing st.faults) = (.error e, m')) :
    st.exec c m = (.error e, m') := by
  unfold Step.exec
  rw [hop]
  unfold Op.program
  rw [exec_bind, h]

/-- A revalidation that is cancelled behind a change returns `Cancelled` and leaves it. -/
theorem Step.LeavesRevalidated.exec (h : st.LeavesRevalidated c m) :
    ∃ e m', st.exec c m = (.error e, m') ∧ e.code = .cancelled ∧ ¬ m.Like m' := by
  obtain ⟨hrun, cancel, k, hop, hk, hset, hclear, -, report, m', hloop, hlike⟩ := h
  exact ⟨_, m', exec_revalidate hop (Fabric.exec_revalidate_cancelled hrun hk hset hclear hloop),
    rfl, hlike⟩

/-- A call that returns `Cancelled` and is no duplicate came to a poll. -/
theorem Step.reachesPoll (hcancel : st.op.cancel ≠ none) (hdup : ¬ st.op.Duplicate c m.state)
    (he : (st.exec c m).1 = .error e) (hcode : e.code = .cancelled) : st.ReachesPoll c m := by
  cases hop : st.op with
  | apply request options =>
      have h := program_of_exec (x := Fabric.apply c request options st.now) he (by rw [hop]; rfl)
      obtain ⟨haccepting, -⟩ := Fabric.accepting_of_cancelled h hcode
      exact .apply hop ((m.accepting_facing _).mp haccepting)
  | applyPlan planned options =>
      have h := program_of_exec (x := Fabric.applyPlan c planned options st.now) he
        (by rw [hop]; rfl)
      obtain ⟨haccepting, ⟨-, ⟨hrefuse, hreason⟩ | ⟨entry, hentry, hsame⟩⟩ |
        ⟨hrefuse, hmiss, ⟨auth, hchecks⟩, -, hrecord⟩⟩ := Fabric.applyPlan_cancelled h hcode
      · exact .refused hop ((m.accepting_facing _).mp haccepting) hrefuse hreason
      · exact absurd ⟨(options.requestId, planned.plan.planDigest), entry, by rw [hop]; rfl,
          hentry, hsame⟩ hdup
      · exact .applyPlan hop ((m.accepting_facing _).mp haccepting) hrefuse hmiss hchecks hrecord
  | replace request =>
      have h := program_of_exec (x := Fabric.replace c request st.now) he (by rw [hop]; rfl)
      unfold Fabric.replace at h
      obtain ⟨haccepting, h⟩ := Fabric.accepting_of_cancelled h hcode
      rw [exec_bind, exec_getState] at h
      simp only at h
      rw [exec_bind, Impl.facing_state] at h
      cases hfind : m.state.assignments.find? request.current with
      | none =>
          rw [hfind] at h
          obtain ⟨herror, -⟩ := Prod.mk.inj h
          cases herror
          cases hcode
      | some current => exact .replace hop ((m.accepting_facing _).mp haccepting) hfind
  | revoke request =>
      have h := program_of_exec (x := Fabric.revoke c request st.now) he (by rw [hop]; rfl)
      obtain ⟨haccepting, -, ⟨entry, hentry, hsame⟩ | ⟨hmiss, r, hfind, hstate⟩⟩ :=
        Fabric.revoke_unchanged h hcode
      · exact absurd ⟨(request.requestId, request.fingerprint), entry, by rw [hop]; rfl, hentry,
          hsame⟩ hdup
      · exact .revoke hop ((m.accepting_facing _).mp haccepting) hmiss hfind hstate
  | reauthorize request =>
      have h := program_of_exec (x := Fabric.reauthorize c request st.now) he (by rw [hop]; rfl)
      obtain ⟨-, entry, hentry, hsame⟩ := Fabric.reauthorize_cancelled h hcode
      exact absurd ⟨(request.requestId, request.fingerprint), entry, by rw [hop]; rfl, hentry,
        hsame⟩ hdup
  | revalidate cancel =>
      obtain ⟨hrun, k, hk, -⟩ := Fabric.revalidate_cancelled (revalidate_of_exec he hop) hcode
      refine .revalidate hop hrun fun hnil ↦ ?_
      rw [Impl.facing_state, hnil] at hk
      cases hk
  | _ =>
      rw [hop] at hcancel
      exact absurd rfl hcancel

private theorem exec_applyLocked_set {request : PlacementRequest} {options : ApplyOptions}
    (hset : options.cancel 0 = true) :
    (Fabric.applyLocked c request options st.now).exec m =
      (.error ⟨.cancelled, "placement cancelled before planning"⟩, m) := by
  unfold Fabric.applyLocked
  rw [exec_bind, exec_check, if_neg (by rw [hset]; decide)]

private theorem exec_revoke_set {request : RevokeRequest} {r : AssignmentRecord}
    (haccepting : m.Accepting) (hmiss : m.state.findIdempotency request.requestId = none)
    (hfind : m.state.assignments.find? request.assignment = some r) (hstate : r.state ≠ .revoked)
    (hset : request.cancel 0 = true) :
    (Fabric.revoke c request st.now).exec m =
      (.error ⟨.cancelled, "revocation cancelled before commit"⟩, m) := by
  unfold Fabric.revoke
  rw [Fabric.exec_accepting haccepting, exec_bind, exec_getState]
  simp only
  rw [Fabric.cachedAnswer_eq_none.mpr hmiss]
  simp only
  rw [exec_bind, hfind, exec_found_some]
  simp only
  rw [if_neg hstate, exec_bind, exec_check, if_neg (by rw [hset]; decide)]

/-- A call whose token is set when it comes to a poll returns `Cancelled`. -/
theorem Step.ReachesPoll.exec {cancel : CancelToken} (h : st.ReachesPoll c m)
    (hcancel : st.op.cancel = some cancel) (hset : ∀ n, cancel n = true) :
    ∃ e m', st.exec c m = (.error e, m') ∧ e.code = .cancelled := by
  cases h with
  | @apply request options hop haccepting =>
      rw [hop] at hcancel
      cases hcancel
      refine ⟨⟨.cancelled, "placement cancelled before planning"⟩, m.facing st.faults,
        exec_of_program (x := Fabric.apply c request options st.now) (by rw [hop]; rfl) ?_, rfl⟩
      unfold Fabric.apply
      rw [Fabric.exec_accepting ((m.accepting_facing _).mpr haccepting)]
      exact exec_applyLocked_set (hset 0)
  | @replace request r hop haccepting hfind =>
      rw [hop] at hcancel
      cases hcancel
      refine ⟨⟨.cancelled, "placement cancelled before planning"⟩, m.facing st.faults,
        exec_of_program (x := Fabric.replace c request st.now) (by rw [hop]; rfl) ?_, rfl⟩
      unfold Fabric.replace
      rw [Fabric.exec_accepting ((m.accepting_facing _).mpr haccepting), exec_bind, exec_getState]
      simp only
      rw [exec_bind, Impl.facing_state, hfind, exec_found_some]
      exact exec_applyLocked_set (hset 0)
  | @applyPlan planned options auth m' hop haccepting hrefuse hmiss hchecks hrecord =>
      rw [hop] at hcancel
      cases hcancel
      exact ⟨_, _, exec_of_program (x := Fabric.applyPlan c planned options st.now)
        (by rw [hop]; rfl) (Fabric.exec_applyPlan_cancelled
          ((m.accepting_facing _).mpr haccepting) hrefuse hmiss hchecks (hset 0) hrecord), rfl⟩
  | @refused planned options hop haccepting hrefuse hreason =>
      refine ⟨⟨planned.primaryReason, "refused plans cannot be applied"⟩, m.facing st.faults,
        exec_of_program (x := Fabric.applyPlan c planned options st.now) (by rw [hop]; rfl) ?_,
        hreason⟩
      unfold Fabric.applyPlan
      rw [Fabric.exec_accepting ((m.accepting_facing _).mpr haccepting), exec_bind, exec_check,
        if_neg (not_not.mpr hrefuse)]
  | @revoke request r hop haccepting hmiss hfind hstate =>
      rw [hop] at hcancel
      cases hcancel
      exact ⟨_, _, exec_of_program (x := Fabric.revoke c request st.now) (by rw [hop]; rfl)
        (exec_revoke_set ((m.accepting_facing _).mpr haccepting) hmiss hfind hstate (hset 0)), rfl⟩
  | @revalidate cancel' hop hrun hlive =>
      rw [hop] at hcancel
      cases hcancel
      exact ⟨_, _, exec_revalidate hop (Fabric.exec_revalidate_cancelled (k := 0) hrun
        (List.length_pos_iff.mpr hlive) (hset 0) (fun j hj ↦ absurd hj (by omega)) rfl), rfl⟩

/-- Cancellation publishes nothing exactly when a call whose token is set from the start comes
to a poll or is a duplicate, and neither the refusal of a cancelled placement is recorded nor a
revalidation cancelled behind a change. A re-authorization never polls its token. -/
theorem cancels_cleanly_iff (c : FabricConfig) (m : Impl) (st : Step) (cancel : CancelToken)
    (hcancel : st.op.cancel = some cancel) :
    st.CancelsCleanly c m ↔
      ((∀ n, cancel n = true) → ¬ st.op.Duplicate c m.state → st.ReachesPoll c m) ∧
        ¬ st.RecordsRefusal c m ∧ ¬ st.LeavesRevalidated c m := by
  have hsome : st.op.cancel ≠ none := by
    rw [hcancel]
    exact Option.some_ne_none _
  constructor
  · intro h
    refine ⟨fun hset hdup ↦ ?_, fun hrecords ↦ ?_, fun hleaves ↦ ?_⟩
    · obtain ⟨e, he, hcode⟩ := h.prompt cancel hcancel hset hdup
      exact Step.reachesPoll hsome hdup he hcode
    · obtain ⟨m', hexec, hlike⟩ := hrecords.exec
      have hnext : st.next c m = m' := congrArg Prod.snd hexec
      rw [← hnext] at hlike
      exact hlike (Step.untraced_iff.mp (h.untraced _ (congrArg Prod.fst hexec) rfl))
    · obtain ⟨e, m', hexec, hcode, hlike⟩ := hleaves.exec
      have hnext : st.next c m = m' := congrArg Prod.snd hexec
      rw [← hnext] at hlike
      exact hlike (Step.untraced_iff.mp (h.untraced _ (congrArg Prod.fst hexec) hcode))
  · rintro ⟨hreaches, hrecords, hleaves⟩
    refine ⟨fun cancel' hcancel' hset hdup ↦ ?_, fun e he hcode ↦ ?_⟩
    · rw [hcancel, Option.some.injEq] at hcancel'
      subst hcancel'
      obtain ⟨e, m', hexec, hcode⟩ := (hreaches hset hdup).exec hcancel hset
      exact ⟨e, congrArg Prod.fst hexec, hcode⟩
    · rcases Step.untraced_or hsome he hcode with hlike | hrefusal | hrevalidated
      · exact Step.untraced_iff.mpr hlike
      · exact absurd hrefusal hrecords
      · exact absurd hrevalidated hleaves

end

namespace Sample

/-- The placement of the small deployment under a request identifier. -/
def named : PlacementRequest := { request with requestId := ⟨ascii "r", .inr (by decide)⟩ }

/-- That placement with a token that is set once the plan is made. -/
def cancelledLate : Step := step (.apply named { cancel := fun n ↦ n == 2 })

/-- A cancelled placement whose refusal answers the next delivery of its request. -/
private def RecordsCancelled (m : Impl) : Prop :=
  (cancelledLate.exec {} m).1 = .error cancelledBeforeCommit ∧
    ((step (.apply named {})).exec {} (cancelledLate.next {} m)).1 =
      .error cancelledBeforeCommit ∧
    ((step (.apply named {})).exec {} m).1 ≠ .error cancelledBeforeCommit

private instance (m : Impl) : Decidable (RecordsCancelled m) :=
  inferInstanceAs (Decidable (_ ∧ _))

private theorem recordsCancelled : RecordsCancelled (run {} ready) := by decide +kernel

end Sample

/-- A placement whose token is set from the start is cancelled without a trace. -/
theorem cancels_cleanly_ready :
    (Sample.step (.apply Sample.named { cancel := fun _ ↦ true })).CancelsCleanly {}
      (run {} Sample.ready) := by
  have haccepting : (run {} Sample.ready).running = true ∧
      (run {} Sample.ready).recoveryAccepted = true := by decide +kernel
  refine (cancels_cleanly_iff {} _ _ (fun _ ↦ true) rfl).mpr
    ⟨fun _ _ ↦ .apply rfl ⟨haccepting.1, haccepting.2⟩, fun h ↦ ?_, fun h ↦ ?_⟩
  · cases h.proceeds
  · obtain ⟨cancel, k, hop, -⟩ := h.cancelled
    cases hop

/-- A placement that is cancelled behind its checks records the cancellation for its request,
and answers a later delivery of it that nothing cancels the same. -/
theorem cancelled_apply_recorded :
    (Sample.cancelledLate.exec {} (run {} Sample.ready)).1 = .error cancelledBeforeCommit ∧
      ((Sample.step (.apply Sample.named {})).exec {}
        (Sample.cancelledLate.next {} (run {} Sample.ready))).1 =
          .error cancelledBeforeCommit ∧
      ¬ Sample.cancelledLate.CancelsCleanly {} (run {} Sample.ready) := by
  have hrecords := Sample.recordsCancelled
  generalize run {} Sample.ready = m at hrecords ⊢
  obtain ⟨hcancelled, hagain, hplaced⟩ := hrecords
  refine ⟨hcancelled, hagain, fun h ↦ hplaced ?_⟩
  rw [← (h.untraced _ hcancelled rfl).later]
  exact hagain

end OffloadFabric
