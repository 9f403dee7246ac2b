import OffloadFabric.Fabric.Cancellation
import OffloadFabric.Fabric.Transitions
import OffloadFabric.Properties.Revalidation

/-!
# A second revalidation

`src/fabric.cpp:2194-2263` passes over an assignment that it has degraded already and suspends
again one that it has suspended already. A second revalidation at the same reading is idle exactly
when the first met no live assignment to suspend.
-/

namespace OffloadFabric

open Lib Lib.Fallible FabricM

namespace FabricState

variable {s : FabricState} {b : Bounds} {r : AssignmentRecord} {now : Micros}

/-- A validity with which revalidation does not suspend. -/
def Spared (s : FabricState) (now : Micros) (r : AssignmentRecord) : Prop :=
  s.assignmentValidity r now = .ok ∨ s.assignmentValidity r now = .livenessDegraded

instance : Decidable (s.Spared now r) := inferInstanceAs (Decidable (_ ∨ _))

/-- What a transition notes of an assignment does not bear on its validity. -/
theorem assignmentValidity_enter (s : FabricState) (r : AssignmentRecord) (b : Bounds)
    (next : AssignmentState) (reason : ReasonCode) (t now : Micros) :
    s.assignmentValidity (r.enter b next reason t) now = s.assignmentValidity r now := rfl

/-- An assignment that revalidation spares needs no second visit. -/
theorem revalidated_afterRevalidation_of_spared (h : s.Spared now r) :
    s.revalidated b (s.afterRevalidation b now r) now = none := by
  cases hre : s.revalidated b r now with
  | none =>
    rw [afterRevalidation, hre]
    exact hre
  | some r' =>
    rw [afterRevalidation, hre, Option.getD_some]
    obtain ⟨-, hok, ⟨hdegraded, -, rfl⟩ | ⟨hnot, -⟩⟩ := revalidated_eq_some hre
    · have hvalidity := assignmentValidity_enter s r b .degraded .livenessDegraded now now
      rw [hdegraded] at hvalidity
      unfold revalidated
      simp [hvalidity]
    · exact absurd h (not_or.mpr ⟨hok, hnot⟩)

/-- A live assignment that revalidation does not spare is suspended at each visit. -/
theorem revalidated_afterRevalidation_of_not_spared (hlive : r.state.isLive = true)
    (h : ¬ s.Spared now r) :
    (s.afterRevalidation b now r).state.isLive = true ∧
      ∃ r', s.revalidated b (s.afterRevalidation b now r) now = some r' := by
  obtain ⟨hok, hdegraded⟩ := not_or.mp h
  have hfirst : s.revalidated b r now =
      some (r.enter b .suspended (s.assignmentValidity r now) now) := by
    unfold revalidated
    simp [AssignmentState.isTerminal_eq_not_isLive, hlive, hok, hdegraded]
  rw [afterRevalidation, hfirst, Option.getD_some]
  have hvalidity := assignmentValidity_enter s r b .suspended (s.assignmentValidity r now) now now
  refine ⟨rfl, (r.enter b .suspended (s.assignmentValidity r now) now).enter b .suspended
    (s.assignmentValidity r now) now, ?_⟩
  unfold revalidated
  simp only [hvalidity, if_neg hok, if_neg hdegraded]
  rfl

end FabricState

namespace Fabric

variable {c : FabricConfig} {now : Micros} {cancel : CancelToken} {polls : Nat}
  {id : AssignmentId} {ids : List AssignmentId} {report report' : RevalidationReport} {m m' : Impl}

/-! ## Visits that store -/

/-- A visit counts the assignment that it moved. -/
theorem revalidateOne_moved (h : (revalidateOne c now id report).exec m = (.ok report', m')) :
    report.moved ≤ report'.moved ∧ (¬ NotDue c now m id → report.moved < report'.moved) := by
  by_cases hdue : NotDue c now m id
  · obtain ⟨report₁, hone, hmoved⟩ : ∃ report₁, (revalidateOne c now id report).exec m =
        (.ok report₁, m) ∧ report₁.moved = report.moved := revalidateOne_notDue hdue
    rw [hone] at h
    cases h
    exact ⟨hmoved.ge, fun hnot ↦ absurd hdue hnot⟩
  · rcases revalidateOne_exec c now id report m with ⟨_, -, hnone⟩ | ⟨r, r', out, -, -, ho, hone⟩
    · exact absurd hnone hdue
    · rw [hone] at h
      cases ho with
      | failed => cases h
      | stored =>
        cases h
        have hmoved := report.moved_count_some r'
        change report.moved ≤ (report.count (some r')).moved ∧
          (_ → report.moved < (report.count (some r')).moved)
        exact ⟨by omega, fun _ ↦ by omega⟩

/-- A loop that ends counts each assignment that was due. -/
theorem revalidateLoop_moved (hnodup : ids.Nodup)
    (h : (revalidateLoop c now cancel polls report ids).exec m = (.ok report', m')) :
    report.moved ≤ report'.moved ∧
      ((∃ id ∈ ids, ¬ NotDue c now m id) → report.moved < report'.moved) := by
  induction ids generalizing m polls report with
  | nil =>
    cases h
    exact ⟨le_rfl, fun ⟨_, hid, _⟩ ↦ absurd hid List.not_mem_nil⟩
  | cons id ids ih =>
    obtain ⟨hid, hnodup⟩ := List.nodup_cons.mp hnodup
    unfold revalidateLoop at h
    obtain ⟨_, m₀, hcheck, h₁⟩ := exec_bind_ok h
    obtain ⟨-, rfl⟩ := exec_check_ok hcheck
    obtain ⟨report₁, m₁, hone, h₂⟩ := exec_bind_ok h₁
    obtain ⟨hevidence, hother⟩ := revalidateOne_frame c now id report m₀
    rw [hone] at hevidence hother
    obtain ⟨hle₁, hlt₁⟩ := revalidateOne_moved hone
    obtain ⟨hle, hlt⟩ := ih hnodup h₂
    refine ⟨hle₁.trans hle, ?_⟩
    rintro ⟨id', hmem, hdue⟩
    rcases List.mem_cons.mp hmem with rfl | hmem
    · exact (hlt₁ hdue).trans_le hle
    · refine hle₁.trans_lt (hlt ⟨id', hmem, fun hnot ↦ hdue fun r hr ↦ ?_⟩)
      -- the visit of another assignment changes neither this one nor its verdict
      have hne : id' ≠ id := fun heq ↦ hid (heq ▸ hmem)
      rw [← hevidence.revalidated]
      apply hnot
      rw [hother id' hne]
      exact hr

/-! ## Revalidations -/

private theorem revalidateOne_running (c : FabricConfig) (now : Micros) (id : AssignmentId)
    (report : RevalidationReport) (m : Impl) :
    ((revalidateOne c now id report).exec m).2.running = m.running := by
  rcases revalidateOne_exec c now id report m with ⟨_, h, -⟩ | ⟨_, _, out, -, -, ho, h⟩
  · rw [h]
  · rw [h]
    cases ho <;> rfl

private theorem revalidateLoop_running
    (h : (revalidateLoop c now cancel polls report ids).exec m = (.ok report', m')) :
    m'.running = m.running := by
  induction ids generalizing m polls report with
  | nil =>
    cases h
    rfl
  | cons id ids ih =>
    unfold revalidateLoop at h
    obtain ⟨_, m₀, hcheck, h₁⟩ := exec_bind_ok h
    obtain ⟨-, rfl⟩ := exec_check_ok hcheck
    obtain ⟨report₁, m₁, hone, h₂⟩ := exec_bind_ok h₁
    have hrunning := revalidateOne_running c now id report m₀
    rw [hone] at hrunning
    exact (ih h₂).trans hrunning

/-- What a revalidation that succeeded went through. -/
theorem revalidate_ok (h : (revalidate c cancel now).exec m = (.ok report, m')) :
    m.running = true ∧ m'.running = true ∧ m.state.SameEvidence m'.state ∧
      (∀ id, m'.state.assignments.find? id =
        (m.state.assignments.find? id).map (m.state.afterRevalidation c.bounds now)) ∧
      ∃ counted, (revalidateLoop c now cancel 0 {} m.state.liveIds).exec m = (.ok counted, m') ∧
        report.moved = counted.moved := by
  unfold revalidate at h
  obtain ⟨_, _, hget, h₁⟩ := exec_bind_ok h
  cases hget
  obtain ⟨_, _, hcheck, h₂⟩ := exec_bind_ok h₁
  obtain ⟨hrun, rfl⟩ := exec_check_ok hcheck
  obtain ⟨hevidence, hfind⟩ := revalidateLocked_ok h₂
  unfold revalidateLocked at h₂
  obtain ⟨_, _, hs, h₃⟩ := exec_bind_ok h₂
  cases hs
  obtain ⟨counted, _, hloop, h₄⟩ := exec_bind_ok h₃
  cases h₄
  exact ⟨hrun, (revalidateLoop_running hloop).trans hrun, hevidence, hfind, counted, hloop, rfl⟩

/-- A revalidation for which no live assignment is due leaves the runtime. -/
theorem revalidate_notDue (h : ∀ id ∈ m.state.liveIds, NotDue c now m id) :
    ((revalidate c cancel now).exec m).2 = m := by
  unfold revalidate
  rw [exec_bind, exec_get]
  simp only
  rw [exec_bind, exec_check]
  by_cases hrun : m.running = true
  · rw [if_pos hrun]
    simp only
    unfold revalidateLocked
    rw [exec_bind, exec_getState]
    simp only
    have hloop : ((revalidateLoop c now cancel 0 {} m.state.liveIds).exec m).2 = m :=
      revalidateLoop_notDue h
    rw [exec_bind]
    generalize (revalidateLoop c now cancel 0 {} m.state.liveIds).exec m = out at hloop
    obtain ⟨answer, m₁⟩ := out
    cases answer <;> exact hloop
  · rw [if_neg hrun]

/-- A running runtime that nothing cancels reports such a revalidation as one that moved
nothing. -/
theorem revalidate_notDue_report (hrun : m.running = true)
    (h : ∀ id ∈ m.state.liveIds, NotDue c now m id) :
    ∃ report, (revalidate c .never now).exec m = (.ok report, m) ∧ report.moved = 0 := by
  obtain ⟨counted, hloop, hmoved⟩ : ∃ counted,
      (revalidateLoop c now .never 0 {} m.state.liveIds).exec m = (.ok counted, m) ∧
        counted.moved = 0 := revalidateLoop_notDue_report h
  refine ⟨{ counted with unchanged := counted.checked - counted.suspended - counted.degraded }, ?_,
    hmoved⟩
  unfold revalidate
  rw [exec_bind, exec_get]
  simp only
  rw [exec_bind, exec_check, if_pos hrun]
  simp only
  unfold revalidateLocked
  rw [exec_bind, exec_getState]
  simp only
  rw [exec_bind, hloop]
  rfl

/-- A revalidation at the given reading finds nothing to do: it changes no assignment and writes
nothing, whatever its token does and its durable calls meet, and unless it is cancelled it reports
no assignment suspended or degraded. -/
structure Idle (c : FabricConfig) (m : Impl) (now : Micros) : Prop where
  assignments : ∀ cancel faults,
    ((revalidate c cancel now).exec (m.facing faults)).2.state.assignments = m.state.assignments
  journal : ∀ cancel faults,
    ((revalidate c cancel now).exec (m.facing faults)).2.log.snapshot = m.log.snapshot ∧
      ((revalidate c cancel now).exec (m.facing faults)).2.log.records = m.log.records
  report : ∀ faults, ∃ report,
    ((revalidate c .never now).exec (m.facing faults)).1 = .ok report ∧ report.suspended = 0 ∧
      report.degraded = 0

/-- A running runtime is idle at a reading exactly when no live assignment is due. -/
theorem idle_iff (hrun : m.running = true) :
    Idle c m now ↔ ∀ id ∈ m.state.liveIds, NotDue c now m id := by
  constructor
  · intro h id hid
    by_contra hdue
    obtain ⟨report, hok, hsuspended, hdegraded⟩ := h.report []
    obtain ⟨-, -, -, -, counted, hloop, hmoved⟩ :=
      revalidate_ok (Prod.ext hok rfl : _ = (Except.ok report, _))
    obtain ⟨-, hlt⟩ := revalidateLoop_moved (FabricState.nodup_liveIds _) hloop
    have hpos := hlt ⟨id, hid, hdue⟩
    have hzero : report.moved = 0 := by
      unfold RevalidationReport.moved
      omega
    omega
  · intro h
    have hleft : ∀ cancel faults,
        ((revalidate c cancel now).exec (m.facing faults)).2 = m.facing faults :=
      fun cancel faults ↦ revalidate_notDue h
    refine ⟨fun cancel faults ↦ ?_, fun cancel faults ↦ ?_, fun faults ↦ ?_⟩
    · rw [hleft]
      rfl
    · rw [hleft]
      exact ⟨rfl, rfl⟩
    · have hfacing : (m.facing faults).running = true := hrun
      obtain ⟨report, hexec, hmoved⟩ := revalidate_notDue_report (c := c) hfacing h
      unfold RevalidationReport.moved at hmoved
      exact ⟨report, congrArg Prod.fst hexec, by omega, by omega⟩

end Fabric

open Fabric

/-- **When revalidation is idempotent**: the second of two revalidations at one reading finds
nothing to do exactly when every live assignment was valid at it, or kept from that by the degraded
liveness of its device only. -/
theorem revalidation_idempotent_iff (c : FabricConfig) (m : Impl) (cancel : CancelToken)
    (now : Micros) (report : RevalidationReport)
    (h : ((revalidate c cancel now).exec m).1 = .ok report) :
    Idle c ((revalidate c cancel now).exec m).2 now ↔
      ∀ r ∈ m.state.assignments.values, r.state.isLive = true → m.state.Spared now r := by
  generalize hm' : ((revalidate c cancel now).exec m).2 = m'
  obtain ⟨-, hrun, hevidence, hfind, -⟩ :=
    revalidate_ok (Prod.ext h hm' : (revalidate c cancel now).exec m = (.ok report, m'))
  rw [idle_iff hrun]
  constructor
  · intro hidle r hr hlive
    by_contra hnot
    obtain ⟨hlive', r', hr'⟩ :=
      FabricState.revalidated_afterRevalidation_of_not_spared (b := c.bounds) hlive hnot
    have hstored := hfind r.id
    rw [← key_assignment, Table.mem_values.mp hr, Option.map_some] at hstored
    have hid : (m.state.afterRevalidation c.bounds now r).id = r.id := Table.key_of_find? hstored
    have hmem : r.id ∈ m'.state.liveIds :=
      List.mem_map.mpr ⟨_, List.mem_filter.mpr ⟨Table.mem_values_of_find? hstored, hlive'⟩, hid⟩
    have hnone := hidle _ hmem _ hstored
    rw [hevidence.revalidated, hr'] at hnone
    cases hnone
  · intro hspared id _ r' hr'
    rw [hfind] at hr'
    obtain ⟨r, hr, rfl⟩ := Option.map_eq_some_iff.mp hr'
    rw [hevidence.revalidated]
    by_cases hlive : r.state.isLive = true
    · exact FabricState.revalidated_afterRevalidation_of_spared
        (hspared r (Table.mem_values_of_find? hr) hlive)
    · have hterminal : r.state.isTerminal = true := by
        rw [AssignmentState.isTerminal_eq_not_isLive]
        simpa using hlive
      have hnone : m.state.revalidated c.bounds r now = none := by
        unfold FabricState.revalidated
        rw [if_pos hterminal]
      rw [FabricState.afterRevalidation, hnone]
      exact hnone

/-- The revalidation of one valid holder, repeated. -/
theorem revalidation_idempotent_placed :
    Idle {} ((revalidate {} .never 2).exec (run {} Sample.placed)).2 2 ↔
      ∀ r ∈ (run {} Sample.placed).state.assignments.values, r.state.isLive = true →
        (run {} Sample.placed).state.Spared 2 r :=
  revalidation_idempotent_iff {} (run {} Sample.placed) .never 2 ⟨1, 0, 0, 1⟩ (by decide +kernel)

/-- The revalidation of a placement whose topology went stale suspends it, and so does the next. -/
theorem revalidation_not_idempotent :
    ((revalidate {} .never 2000).exec (run {} Sample.placed)).1 = .ok ⟨1, 1, 0, 0⟩ ∧
      ¬ Idle {} ((revalidate {} .never 2000).exec (run {} Sample.placed)).2 2000 := by
  refine ⟨by decide +kernel, fun h ↦ ?_⟩
  obtain ⟨report, hok, hsuspended, -⟩ := h.report []
  have hagain : ((revalidate {} .never 2000).exec
      (((revalidate {} .never 2000).exec (run {} Sample.placed)).2.facing [])).1 =
        .ok ⟨1, 1, 0, 0⟩ := by decide +kernel
  rw [hagain] at hok
  cases hok
  cases hsuspended

end OffloadFabric
