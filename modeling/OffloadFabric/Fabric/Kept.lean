import OffloadFabric.Fabric.Course
import OffloadFabric.Lib.Keeps

/-!
# What the durable calls keep

The operations change their log by the calls of `Journal.Log` alone. What each of those calls keeps
of a log, whatever faults it meets, every step and every run keeps.
-/

namespace OffloadFabric

open Lib Lib.Fallible FabricM

/-- A predicate of logs that every durable call keeps and that does not see the faults ahead. -/
structure Log.Durable (b : Bounds) (I : Log → Prop) : Prop where
  append : ∀ type payload, Keeps I (Log.append b type payload)
  compact : ∀ payload, Keeps I (Log.compact b payload)
  reopen : Keeps I (Log.reopen b)
  faults : ∀ l faults, I l → I { l with faults }

variable {c : FabricConfig} {I : Log → Prop}

/-- A program over the runtime that keeps a predicate of its log. -/
abbrev KeepsLog {α : Type} (I : Log → Prop) (x : FabricM α) : Prop := Keeps (fun m ↦ I m.log) x

namespace FabricM

theorem keeps_getState : KeepsLog I getState := .bind .get fun _ ↦ .pure _

theorem keeps_modifyState (f : FabricState → FabricState) : KeepsLog I (modifyState f) :=
  .modify fun _ h ↦ h

theorem keeps_onLog {α : Type} {x : Fallible Log Error α} (h : Keeps I x) :
    KeepsLog I (onLog x) := by
  intro m hm
  rw [exec_onLog]
  exact h m.log hm

theorem keeps_issue {α : Type} (f : FabricState → Result (α × FabricState)) (tag : α → Issued) :
    KeepsLog I (issue f tag) := by
  intro m hm
  unfold issue
  rw [exec_bind, exec_get]
  simp only
  cases f m.state with
  | error e => exact hm
  | ok p => exact hm

end FabricM

namespace Fabric

theorem keeps_checkAccepting : KeepsLog I checkAccepting := by
  unfold checkAccepting
  exact .bind .get fun _ ↦ .bind (.check _ _) fun _ ↦ .check _ _

theorem keeps_compactLocked (h : Log.Durable c.bounds I) : KeepsLog I (compactLocked c) := by
  unfold compactLocked
  exact .bind .get fun _ ↦ .ite (.bind (.liftExcept _) fun _ ↦ keeps_onLog (h.compact _)) (.pure _)

theorem keeps_commit (h : Log.Durable c.bounds I) (type : RecordType) (payload : Bytes) :
    KeepsLog I (commit c type payload) := by
  unfold commit
  refine .bind .get fun m ↦ .ite ?_ (.pure _)
  split
  · exact .bind (keeps_compactLocked h) fun _ ↦ keeps_onLog (h.append _ _)
  · exact keeps_onLog (h.append _ _)

theorem keeps_answer (id : RequestId) (fingerprint : Digest) (r : AssignmentRecord)
    (now : Micros) : KeepsLog I (answer c id fingerprint r now) := by
  unfold answer
  exact .ite (.bind (.liftExcept _) fun _ ↦ keeps_modifyState _) (.pure _)

theorem keeps_storeAssignment (h : Log.Durable c.bounds I) (r : AssignmentRecord) (id : RequestId)
    (fingerprint : Digest) (type : RecordType) (now : Micros) :
    KeepsLog I (storeAssignment c r id fingerprint type now) := by
  unfold storeAssignment
  exact .bind (.liftExcept _) fun _ ↦ .bind (keeps_commit h _ _) fun _ ↦
    .bind (keeps_modifyState _) fun _ ↦ keeps_answer _ _ _ _

theorem keeps_storeEffect (h : Log.Durable c.bounds I) (r : AssignmentRecord)
    (report : EffectReport) (id : RequestId) (fingerprint : Digest) (now : Micros) :
    KeepsLog I (storeEffect c r report id fingerprint now) := by
  unfold storeEffect
  exact .bind (.liftExcept _) fun _ ↦ .bind (keeps_commit h _ _) fun _ ↦
    .bind (keeps_modifyState _) fun _ ↦ keeps_answer _ _ _ _

theorem keeps_recordRefusal (h : Log.Durable c.bounds I) (id : RequestId) (fingerprint : Digest)
    (e : Error) (now : Micros) : KeepsLog I (recordRefusal c id fingerprint e now) := by
  unfold recordRefusal
  exact .ite (.bind (.liftExcept _) fun _ ↦ .bind (.liftExcept _) fun _ ↦
    .bind (keeps_commit h _ _) fun _ ↦ keeps_modifyState _) (.pure _)

theorem keeps_noteReassignment (h : Log.Durable c.bounds I) (k : ExclusivityKey) (now : Micros) :
    KeepsLog I (noteReassignment c k now) := by
  unfold noteReassignment
  exact .bind (keeps_modifyState _) fun _ ↦ .bind (.liftExcept _) fun _ ↦ keeps_commit h _ _

/-! ## Revalidation and evidence -/

theorem keeps_revalidateOne (h : Log.Durable c.bounds I) (now : Micros) (id : AssignmentId)
    (report : RevalidationReport) : KeepsLog I (revalidateOne c now id report) := by
  unfold revalidateOne
  refine .bind keeps_getState fun s ↦ ?_
  split
  · exact .pure _
  · refine .ite (.pure _) ?_
    split
    · exact .pure _
    · exact .bind (keeps_storeAssignment h _ _ _ _ _) fun _ ↦ .pure _

theorem keeps_revalidateLoop (h : Log.Durable c.bounds I) (now : Micros) (cancel : CancelToken)
    (ids : List AssignmentId) (polls : Nat) (report : RevalidationReport) :
    KeepsLog I (revalidateLoop c now cancel polls report ids) := by
  induction ids generalizing polls report with
  | nil => exact .pure _
  | cons id ids ih =>
    unfold revalidateLoop
    exact .bind (.check _ _) fun _ ↦ .bind (keeps_revalidateOne h _ _ _) fun _ ↦ ih _ _

theorem keeps_revalidateLocked (h : Log.Durable c.bounds I) (now : Micros) (cancel : CancelToken) :
    KeepsLog I (revalidateLocked c now cancel) := by
  unfold revalidateLocked
  exact .bind keeps_getState fun _ ↦ .bind (keeps_revalidateLoop h _ _ _ _ _) fun _ ↦ .pure _

theorem keeps_deliver (h : Log.Durable c.bounds I) (d : Delivery) : KeepsLog I (deliver c d) := by
  unfold deliver
  exact .bind (.liftExcept _) fun _ ↦ .bind (keeps_commit h _ _) fun _ ↦ keeps_modifyState _

theorem keeps_register (h : Log.Durable c.bounds I)
    (accept : FabricState → Result (Option Delivery)) : KeepsLog I (register c accept) := by
  unfold register
  refine .bind keeps_getState fun s ↦ .bind (.liftExcept _) fun d ↦ ?_
  cases d with
  | none => exact .pure _
  | some d => exact keeps_deliver h d

theorem keeps_ingest (h : Log.Durable c.bounds I)
    (accept : FabricState → Result (Option Delivery)) (now : Micros) :
    KeepsLog I (ingest c accept now) := by
  unfold ingest revalidateNow
  refine .bind keeps_getState fun s ↦ .bind (.liftExcept _) fun d ↦ ?_
  cases d with
  | none => exact .pure _
  | some d =>
    exact .bind (keeps_deliver h d) fun _ ↦ .bind (keeps_revalidateLocked h _ _) fun _ ↦ .pure _

/-! ## Placements -/

theorem keeps_supersede (h : Log.Durable c.bounds I) (replacing : AssignmentId)
    (k : ExclusivityKey) (now : Micros) : KeepsLog I (supersede c replacing k now) := by
  unfold supersede
  refine .ite (.bind keeps_getState fun s ↦ ?_) (.pure _)
  split
  · exact .pure _
  · exact .bind (keeps_storeAssignment h _ _ _ _ _) fun _ ↦ keeps_noteReassignment h _ _

theorem keeps_authorizeLocked (h : Log.Durable c.bounds I) (p : AssignmentPlan)
    (options : ApplyOptions) (polls : Nat) (now stored : Micros) :
    KeepsLog I (authorizeLocked c p options polls now stored) := by
  unfold authorizeLocked
  exact .bind keeps_getState fun _ ↦ .bind (.liftExcept _) fun _ ↦ .bind (.check _ _) fun _ ↦
    .bind (keeps_issue _ _) fun _ ↦ .bind (keeps_issue _ _) fun _ ↦ .bind (keeps_issue _ _) fun _ ↦
      .bind (keeps_issue _ _) fun _ ↦ .bind (keeps_supersede h _ _ _) fun _ ↦
        .bind (keeps_storeAssignment h _ _ _ _ _) fun _ ↦ .pure _

theorem keeps_refusing (h : Log.Durable c.bounds I) (id : RequestId) (fingerprint : Digest)
    (now : Micros) {x : FabricM AssignmentRecord} (hx : KeepsLog I x) :
    KeepsLog I (refusing c id fingerprint now x) := by
  unfold refusing
  exact .tryCatch hx fun _ ↦ .bind (keeps_recordRefusal h _ _ _ _) fun _ ↦ .throw _

theorem keeps_applyLocked (h : Log.Durable c.bounds I) (request : PlacementRequest)
    (options : ApplyOptions) (now : ClockReadings) :
    KeepsLog I (applyLocked c request options now) := by
  unfold applyLocked
  refine .bind (.check _ _) fun _ ↦ .bind keeps_getState fun s ↦ ?_
  simp only
  split
  · exact .liftExcept _
  · exact .bind (.liftExcept _) fun _ ↦
      .ite (.bind (keeps_recordRefusal h _ _ _ _) fun _ ↦ .throw _)
        (keeps_refusing h _ _ _ (keeps_authorizeLocked h _ _ _ _ _))

theorem keeps_apply (h : Log.Durable c.bounds I) (request : PlacementRequest)
    (options : ApplyOptions) (now : ClockReadings) : KeepsLog I (apply c request options now) := by
  unfold apply
  exact .bind keeps_checkAccepting fun _ ↦ keeps_applyLocked h _ _ _

theorem keeps_applyPlan (h : Log.Durable c.bounds I) (planned : PlanResult)
    (options : ApplyOptions) (now : ClockReadings) :
    KeepsLog I (applyPlan c planned options now) := by
  unfold applyPlan
  refine .bind keeps_checkAccepting fun _ ↦ .bind (.check _ _) fun _ ↦
    .bind keeps_getState fun s ↦ ?_
  split
  · exact .liftExcept _
  · exact keeps_refusing h _ _ _ (keeps_authorizeLocked h _ _ _ _ _)

theorem keeps_replace (h : Log.Durable c.bounds I) (request : ReplaceRequest)
    (now : ClockReadings) : KeepsLog I (replace c request now) := by
  unfold replace
  exact .bind keeps_checkAccepting fun _ ↦ .bind keeps_getState fun _ ↦ .bind (.found _ _) fun _ ↦
    keeps_applyLocked h _ _ _

/-! ## Operations on an assignment -/

theorem keeps_revoke (h : Log.Durable c.bounds I) (request : RevokeRequest) (now : ClockReadings) :
    KeepsLog I (revoke c request now) := by
  unfold revoke
  refine .bind keeps_checkAccepting fun _ ↦ .bind keeps_getState fun s ↦ ?_
  split
  · exact .liftExcept _
  · refine .bind (.found _ _) fun r ↦ .ite (.pure _) ?_
    exact .bind (.check _ _) fun _ ↦ .bind (.liftExcept _) fun _ ↦
      .bind (keeps_storeAssignment h _ _ _ _ _) fun _ ↦ .pure _

theorem keeps_reauthorize (h : Log.Durable c.bounds I) (request : ReauthorizeRequest)
    (now : ClockReadings) : KeepsLog I (reauthorize c request now) := by
  unfold reauthorize
  refine .bind keeps_checkAccepting fun _ ↦ .bind keeps_getState fun s ↦ ?_
  split
  · exact .liftExcept _
  · refine .bind (.found _ _) fun r ↦ .ite (.pure _) ?_
    exact .bind (.liftExcept _) fun _ ↦ .bind (keeps_issue _ _) fun _ ↦
      .bind (keeps_issue _ _) fun _ ↦ .bind (keeps_issue _ _) fun _ ↦
        .bind (keeps_storeAssignment h _ _ _ _ _) fun _ ↦ .pure _

theorem keeps_reportEffect (h : Log.Durable c.bounds I) (report : EffectReport)
    (now : ClockReadings) : KeepsLog I (reportEffect c report now) := by
  unfold reportEffect
  refine .bind keeps_checkAccepting fun _ ↦ .bind keeps_getState fun s ↦ ?_
  simp only
  split
  · exact .liftExcept _
  · refine .bind (.found _ _) fun r ↦ .bind (.liftExcept _) fun _ ↦ .bind (.liftExcept _) fun o ↦ ?_
    cases o with
    | none => exact .pure _
    | some record => exact .bind (keeps_storeEffect h _ _ _ _ _) fun _ ↦ .pure _

/-! ## The life cycle -/

theorem keeps_suspendForRestart (h : Log.Durable c.bounds I) (now : Micros) (id : AssignmentId) :
    KeepsLog I (suspendForRestart c now id) := by
  unfold suspendForRestart
  refine .bind keeps_getState fun s ↦ ?_
  split
  · exact .pure _
  · exact .ite (.pure _) (keeps_storeAssignment h _ _ _ _ _)

theorem keeps_suspendAll (h : Log.Durable c.bounds I) (now : Micros) (ids : List AssignmentId) :
    KeepsLog I (suspendAll c now ids) := by
  induction ids with
  | nil => exact .pure _
  | cons id ids ih =>
    unfold suspendAll
    exact .bind (keeps_suspendForRestart h _ _) fun _ ↦ ih

theorem keeps_onState (x : FabricState.Replay Unit) : KeepsLog I (onState x) := by
  intro m hm
  unfold onState
  rw [exec_bind, exec_get]
  simp only
  split
  · exact hm
  · exact hm

theorem keeps_restart (h : Log.Durable c.bounds I) (boot : BootId) (now : Micros) :
    KeepsLog I (restart c boot now) := by
  unfold restart
  exact .bind keeps_getState fun _ ↦ .bind (.liftExcept _) fun _ ↦
    .bind (keeps_modifyState _) fun _ ↦ .bind (.liftExcept _) fun _ ↦
      .bind (.tryCatch (keeps_commit h _ _) fun _ ↦ .throw _) fun _ ↦
        .bind (keeps_modifyState _) fun _ ↦ .bind keeps_getState fun _ ↦
          .bind (keeps_suspendAll h _ _) fun _ ↦ .modify fun _ hm ↦ hm

theorem keeps_start (h : Log.Durable c.bounds I) (boot : BootId) (now : Micros) :
    KeepsLog I (start c boot now) := by
  unfold start recoverState
  refine .bind .get fun m ↦ .bind (.check _ _) fun _ ↦ .bind (.modify fun _ hm ↦ hm) fun _ ↦
    .bind (.liftExcept _) fun _ ↦ .ite ?_ (.modify fun _ hm ↦ hm)
  exact .bind (keeps_onLog h.reopen) fun _ ↦ .bind (.modify fun _ hm ↦ hm) fun _ ↦
    .bind (.bind .get fun _ ↦ .bind (keeps_onState _) fun _ ↦ keeps_modifyState _) fun _ ↦
      keeps_restart h _ _

theorem keeps_shutdown (h : Log.Durable c.bounds I) : KeepsLog I (shutdown c) := by
  unfold shutdown
  refine .bind .get fun m ↦ .bind (.modify fun _ hm ↦ hm) fun _ ↦ .ite ?_ (.pure _)
  exact .ite (.bind (.modify fun _ hm ↦ hm) fun _ ↦ keeps_onLog (h.append _ _))
    (.modify fun _ hm ↦ hm)

theorem keeps_compact (h : Log.Durable c.bounds I) : KeepsLog I (compact c) := by
  unfold compact
  exact .bind .get fun _ ↦ .bind (.check _ _) fun _ ↦ keeps_compactLocked h

end Fabric

/-! ## Runs -/

open Fabric in
/-- What the durable calls keep, every operation keeps. -/
theorem Op.keeps (h : Log.Durable c.bounds I) (now : ClockReadings) (op : Op) :
    KeepsLog I (op.program c now) := by
  cases op with
  | start boot => exact .bind (keeps_start h _ _) fun _ ↦ .pure _
  | shutdown => exact .bind (keeps_shutdown h) fun _ ↦ .pure _
  | acceptRecovery =>
    exact .bind (.bind .get fun _ ↦ .bind (.check _ _) fun _ ↦ .modify fun _ hm ↦ hm)
      fun _ ↦ .pure _
  | compact => exact .bind (keeps_compact h) fun _ ↦ .pure _
  | crash => exact .bind (.modify fun _ hm ↦ hm) fun _ ↦ .pure _
  | registerFunction f =>
    exact .bind (.bind keeps_checkAccepting fun _ ↦ keeps_register h _) fun _ ↦ .pure _
  | ingestTopology t =>
    exact .bind (.bind keeps_checkAccepting fun _ ↦ keeps_ingest h _ _) fun _ ↦ .pure _
  | ingestCapabilities report =>
    exact .bind (.bind keeps_checkAccepting fun _ ↦ keeps_ingest h _ _) fun _ ↦ .pure _
  | ingestPolicy p =>
    exact .bind (.bind keeps_checkAccepting fun _ ↦ keeps_ingest h _ _) fun _ ↦ .pure _
  | ingestObservations report =>
    exact .bind (.bind keeps_checkAccepting fun _ ↦ keeps_ingest h _ _) fun _ ↦ .pure _
  | grantAuthority g =>
    exact .bind (.bind keeps_checkAccepting fun _ ↦ keeps_register h _) fun _ ↦ .pure _
  | withdrawAuthority id reason =>
    exact .bind (.bind .get fun _ ↦ .bind (.check _ _) fun _ ↦ keeps_ingest h _ _) fun _ ↦ .pure _
  | apply request options => exact .map (keeps_apply h _ _ _)
  | applyPlan planned options => exact .map (keeps_applyPlan h _ _ _)
  | replace request => exact .map (keeps_replace h _ _)
  | revoke request => exact .map (keeps_revoke h _ _)
  | reauthorize request => exact .map (keeps_reauthorize h _ _)
  | reportEffect report => exact .map (keeps_reportEffect h _ _)
  | revalidate cancel =>
    exact .bind (.bind .get fun _ ↦ .bind (.check _ _) fun _ ↦ keeps_revalidateLocked h _ _)
      fun _ ↦ .pure _

/-- What the durable calls keep of a log, a step keeps. -/
theorem Step.keeps (h : Log.Durable c.bounds I) {m : Impl} (hm : I m.log) (st : Step) :
    I (st.next c m).log :=
  st.op.keeps h st.now (m.facing st.faults) (h.faults m.log st.faults hm)

/-- **What the durable calls keep of a log, a run keeps.** -/
theorem runFrom_keeps (h : Log.Durable c.bounds I) {m : Impl} (hm : I m.log) (steps : List Step) :
    I (runFrom c m steps).log := by
  unfold runFrom
  induction steps generalizing m with
  | nil => exact hm
  | cons st steps ih =>
    rw [List.foldl_cons]
    exact ih (st.keeps h hm)

end OffloadFabric
