import OffloadFabric.Fabric.Transitions

/-!
# Verified application is earned

An assignment is in `applied-verified` only after a report with outcome `applied` was accepted
for it (`src/fabric.cpp:3998-4133`), and it still carries what that report was matched with.
-/

namespace OffloadFabric

open Lib Lib.Fallible FabricState Wire

variable {c : FabricConfig} {m : Impl} {st : Step}

/-- A report of the run with outcome `applied` was accepted for the assignment, in the epoch of
the token it carries, and matched what it carries. -/
def EarnedApplication (c : FabricConfig) (steps : List Step) (r : AssignmentRecord) : Prop :=
  ∃ before st after report r', steps = before ++ st :: after ∧ st.op = .reportEffect report ∧
    (st.exec c (run c before)).1 = .ok (some r') ∧ r'.state = .appliedVerified ∧
    report.outcome = .applied ∧ report.assignment = r.id ∧
    (run c before).state.epoch.counter = r.fence.epoch ∧ report.attempt = r.attempt ∧
    report.generation = r.generation ∧ report.fence = r.fence ∧
    report.incarnation = r.incarnation ∧ report.capabilityGeneration = r.binding.capability

/-- What was earned stays earned by the record as long as its authority is the same. -/
theorem EarnedApplication.of_continues {steps : List Step} {r r' : AssignmentRecord}
    (h : EarnedApplication c steps r) (hr : r.Continues r') : EarnedApplication c steps r' := by
  rw [hr]
  exact h

theorem EarnedApplication.append {steps : List Step} {r : AssignmentRecord}
    (h : EarnedApplication c steps r) (st : Step) : EarnedApplication c (steps ++ [st]) r := by
  obtain ⟨before, st₀, after, report, r', rfl, h⟩ := h
  exact ⟨before, st₀, after ++ [st], report, r', by simp, h⟩

/-- All that a report stores is what it makes of the assignment it names. -/
theorem Step.report_stores {s : FabricState} {v : RecordedAssignment} {report : EffectReport}
    (hop : st.op = .reportEffect report) (hv : Stores c st.now m.state s st.op v) :
    ∃ r, m.state.assignments.find? report.assignment = some r ∧
      fencingChecks m.state report r = .ok () ∧
      effectStep c.bounds report r (st.now 0) = .ok (some v.record) := by
  rw [hop] at hv
  cases hv with
  | revalidated hrev _ _ _ _ => cases hrev
  | reported hs hfind hfence hr => exact ⟨_, hs ▸ hfind, hs ▸ hfence, hr⟩
  | superseded ha _ _ _ => cases ha.asked
  | created ha _ _ => cases ha.asked

/-- A report that verifies the application of an assignment answers with it. -/
theorem Step.Storing.report_ok {s : FabricState} {v : RecordedAssignment}
    {report : EffectReport} (hop : st.op = .reportEffect report) (hv : st.Storing c m s v)
    (happlied : report.outcome = .applied) :
    ∃ r', (st.exec c m).1 = .ok (some r') ∧ r'.state = .appliedVerified := by
  obtain ⟨r, hr, hfence, hstep⟩ := Step.report_stores hop hv.stores
  obtain ⟨hcontinues, ho⟩ := effectStep_eq_some hstep
  have hid : v.record.id = report.assignment := by
    rw [hcontinues]
    exact Table.key_of_find? hr
  have hstates : r.state ≠ .appliedVerified ∧ v.record.state = .appliedVerified := by
    rw [happlied] at ho
    generalize hs : v.record.state = state at ho
    cases ho with
    | applied h => rcases h with h | h | h <;> simp [h]
  have hnext : (st.next c m).state.assignments.find? report.assignment = some v.record := by
    obtain ⟨m₁, m₂, -, hinsert, -, hafter⟩ := hv.exists_course
    generalize st.next c m = m' at hafter
    induction hafter with
    | refl =>
        rw [hinsert, ← hid]
        exact Table.find?_insert_self _ _
    | tail _ hc ih =>
        rcases hc.assignments (by simp [hop]) with hsame | ⟨v', _, _, -, hv', -, -, hins⟩
        · rw [hsame]
          exact ih
        · obtain ⟨r₂, hr₂, -, hstep₂⟩ := Step.report_stores hop hv'
          rw [Impl.facing_state, hr] at hr₂
          cases hr₂
          have heq : v'.record = v.record := by
            rw [hstep, Except.ok.injEq, Option.some.injEq] at hstep₂
            exact hstep₂.symm
          rw [hins, heq, ← hid]
          exact Table.find?_insert_self _ _
  have hexec := Fabric.reportEffect_exec c report st.now (m.facing st.faults)
  unfold Step.next at hnext
  unfold Step.exec at hnext ⊢
  rw [hop] at hnext ⊢
  simp only [Op.program, map_eq_pure_bind, exec_bind] at hnext ⊢
  generalize (Fabric.reportEffect c report st.now).exec (m.facing st.faults) = out
    at hexec hnext ⊢
  obtain ⟨res, m'⟩ := out
  rcases hexec with hsame | ⟨r₂, r', hr₂, -, hstep₂, hres, -⟩
  · have hfind : m'.state.assignments.find? report.assignment = some v.record := by
      cases res <;> exact hnext
    have hold : m'.state.assignments = m.state.assignments := hsame
    rw [hold, hr, Option.some.injEq] at hfind
    exact absurd (hfind ▸ hstates.2) hstates.1
  · have hfind : m.state.assignments.find? report.assignment = some r₂ := hr₂
    rw [hr] at hfind
    cases hfind
    rw [hstep, Except.ok.injEq, Option.some.injEq] at hstep₂
    subst hstep₂
    have hok : res = .ok v.record := hres
    subst hok
    exact ⟨v.record, rfl, hstates.2⟩

/-- **Verified application is earned.** In every state of every run, whatever fails or crashes
in it, an assignment in `applied-verified` is there by an accepted report of its application,
which matched the attempt, generation, token, incarnation and capability generation it carries,
in the epoch of that token. -/
theorem verified_application_is_earned (c : FabricConfig) (steps : List Step) :
    ∀ r ∈ (run c steps).state.assignments.values, r.state = .appliedVerified →
      EarnedApplication c steps r := by
  refine (run_every (E := fun steps r ↦ r.state = .appliedVerified →
    EarnedApplication c steps r) (fun steps st r h hstate ↦ (h hstate).append st)
    (fun steps st s v _ hbefore hs hv ↦ ?_) (fun steps st boot r _ _ _ _ hstate ↦ ?_)
    steps).memory
  · intro hstate
    generalize hop : st.op = op
    have hstores := hv.stores
    rw [hop] at hstores
    cases hstores with
    | revalidated _ _ _ _ hr =>
        obtain ⟨-, -, ⟨-, -, rfl⟩ | ⟨-, rfl⟩⟩ := revalidated_eq_some hr <;> cases hstate
    | revoked _ _ _ _ => cases hstate
    | reauthorized _ _ _ =>
        rcases reauthorized_state _ _ _ _ _ _ _ _ _ with h | h <;>
          exact absurd (h.symm.trans hstate) (by decide)
    | superseded _ _ _ _ => cases hstate
    | created _ _ _ => cases hstate
    | @reported report r r' hs' hfind hfence hr =>
        obtain ⟨hcontinues, ho⟩ := effectStep_eq_some hr
        have hfits := fencingChecks_eq_ok hfence
        rw [hs'] at hfind hfits
        rw [show RecordedAssignment.record ⟨r', _, _⟩ = r' from rfl] at hstate ⊢
        cases hout : report.outcome with
        | applied =>
            obtain ⟨r₀, hok, hr₀⟩ := hv.report_ok hop hout
            have hid : r.id = report.assignment := Table.key_of_find? hfind
            refine EarnedApplication.of_continues ?_ hcontinues
            exact ⟨steps, st, [], report, r₀, rfl, hop, hok, hr₀, hout, hid.symm,
              hfits.epoch.symm.trans (congrArg _ hfits.fence), hfits.attempt,
              hfits.generation, hfits.fence, hfits.incarnation, hfits.capability⟩
        | rejected =>
            rw [hout, hstate] at ho
            cases ho
        | failed =>
            rw [hout, hstate] at ho
            cases ho
        | unknown =>
            rw [hout] at ho
            have hsame : r.state = r'.state := by
              generalize r'.state = state at ho
              cases ho
              rfl
            exact ((hbefore.memory.find? hfind (hsame.trans hstate)).of_continues
              hcontinues).append st
  · cases hstate

/-- The assignment of the small deployment is verified, and it earned it. -/
theorem verified_application_is_earned_applied :
    ∃ r ∈ (run {} Sample.applied).state.assignments.values, r.state = .appliedVerified ∧
      EarnedApplication {} Sample.applied r := by
  have hany : (run {} Sample.applied).state.assignments.values.any
      (·.state = .appliedVerified) = true := by decide +kernel
  obtain ⟨r, hr, hstate⟩ := List.any_eq_true.mp hany
  have hstate := of_decide_eq_true hstate
  exact ⟨r, hr, hstate, verified_application_is_earned {} Sample.applied r hr hstate⟩

end OffloadFabric
