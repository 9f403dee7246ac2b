import OffloadFabric.Fabric.Runtime

/-!
# Revalidation

`revalidate_locked` of `src/fabric.cpp:2194-2263`: every live assignment is checked against
current evidence at one clock reading, and one that fails is degraded or suspended.
-/

namespace OffloadFabric

open Lib Lib.Fallible FabricM

namespace FabricState

/-- What revalidation makes of an assignment, `src/fabric.cpp:2216-2258`: nothing when it is
terminal, valid, or already degraded for a degraded target. -/
def revalidated (s : FabricState) (b : Bounds) (r : AssignmentRecord) (now : Micros) :
    Option AssignmentRecord :=
  let reason := s.assignmentValidity r now
  if r.state.isTerminal then none
  else if reason = .ok then none
  else if reason = .livenessDegraded then
    if r.state = .degraded then none
    else some (r.enter b .degraded reason now)
  else some (r.enter b .suspended reason now)

/-- The live assignments in identifier order, `src/fabric.cpp:2195-2201`. -/
def liveIds (s : FabricState) : List AssignmentId :=
  (s.assignments.values.filter (·.state.isLive)).map (·.id)

end FabricState

namespace RevalidationReport

/-- A checked assignment and what became of it, `src/fabric.cpp:2219-2257`. -/
def count (report : RevalidationReport) (outcome : Option AssignmentRecord) :
    RevalidationReport :=
  match outcome with
  | none => { report with checked := report.checked + 1 }
  | some r =>
      if r.state = .degraded then
        { report with checked := report.checked + 1, degraded := report.degraded + 1 }
      else { report with checked := report.checked + 1, suspended := report.suspended + 1 }

/-- The assignments a revalidation moved. -/
def moved (report : RevalidationReport) : Nat := report.suspended + report.degraded

theorem moved_count_none (report : RevalidationReport) :
    (report.count none).moved = report.moved := rfl

theorem moved_count_some (report : RevalidationReport) (r : AssignmentRecord) :
    (report.count (some r)).moved = report.moved + 1 := by
  unfold count moved
  simp only
  split
  · rfl
  · simp only
    omega

end RevalidationReport

namespace Fabric

/-- The visit of one assignment, `src/fabric.cpp:2211-2257`. -/
def revalidateOne (c : FabricConfig) (now : Micros) (id : AssignmentId)
    (report : RevalidationReport) : FabricM RevalidationReport := do
  let s ← getState
  match s.assignments.find? id with
  | none => return report
  | some r =>
      if r.state.isTerminal then return report
      else
        match s.revalidated c.bounds r now with
        | none => return report.count none
        | some r' =>
            storeAssignment c r' .empty .zero .assignmentTransitioned now
            return report.count (some r')

/-- The loop of `revalidate_locked` over the identifiers still to visit; the cancel token is
read before each. -/
def revalidateLoop (c : FabricConfig) (now : Micros) (cancel : CancelToken) (polls : Nat)
    (report : RevalidationReport) : List AssignmentId → FabricM RevalidationReport
  | [] => return report
  | id :: ids => do
      check (cancel polls = false) ⟨.cancelled, "revalidation cancelled"⟩
      let report ← revalidateOne c now id report
      revalidateLoop c now cancel (polls + 1) report ids

/-- `revalidate_locked`, `src/fabric.cpp:2194-2263`. -/
def revalidateLocked (c : FabricConfig) (now : Micros) (cancel : CancelToken) :
    FabricM RevalidationReport := do
  let s ← getState
  let report ← revalidateLoop c now cancel 0 {} s.liveIds
  return { report with unchanged := report.checked - report.suspended - report.degraded }

/-- `revalidate_now`, `src/fabric.cpp:1765-1768`. -/
def revalidateNow (c : FabricConfig) (now : Micros) : FabricM Unit := do
  let _ ← revalidateLocked c now .never

/-- `Fabric::revalidate`, `src/fabric.cpp:3983-3996`. -/
def revalidate (c : FabricConfig) (cancel : CancelToken) (now : Micros) :
    FabricM RevalidationReport := do
  let m ← get
  check (m.running = true) ⟨.shuttingDown, "runtime is not running"⟩
  revalidateLocked c now cancel

end Fabric

end OffloadFabric
