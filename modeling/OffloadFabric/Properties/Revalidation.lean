import OffloadFabric.Fabric.Course

/-!
# Revalidation is sound and complete

After a revalidation that succeeded, exactly the valid assignments hold the authority they held:
a holder is valid at the clock reading of the revalidation, and a valid assignment is as it was.
-/

namespace OffloadFabric

open Lib Lib.Fallible FabricM

namespace FabricState

/-- What revalidation makes of an assignment depends on the evidence only. -/
theorem SameEvidence.revalidated {s t : FabricState} (h : SameEvidence s t) (b : Bounds)
    (r : AssignmentRecord) (now : Micros) : t.revalidated b r now = s.revalidated b r now := by
  unfold FabricState.revalidated
  rw [h.assignmentValidity]

/-- A valid assignment is left alone. -/
theorem revalidated_of_valid {s : FabricState} {r : AssignmentRecord} {now : Micros}
    (h : s.assignmentValidity r now = .ok) (b : Bounds) : s.revalidated b r now = none := by
  unfold revalidated
  simp only [h, if_true, ite_self]

/-- What revalidation stores holds no authority. -/
theorem revalidated_holdsAuthority {s : FabricState} {b : Bounds} {r r' : AssignmentRecord}
    {now : Micros} (h : s.revalidated b r now = some r') : r'.state.holdsAuthority = false := by
  unfold revalidated at h
  simp only at h
  repeat' split at h
  all_goals cases h
  all_goals rfl

/-- A holder that revalidation leaves alone is valid. -/
theorem valid_of_revalidated {s : FabricState} {b : Bounds} {r : AssignmentRecord}
    {now : Micros} (h : s.revalidated b r now = none) (hholds : r.state.holdsAuthority = true) :
    s.assignmentValidity r now = .ok := by
  have hlive := AssignmentState.isLive_of_holdsAuthority hholds
  unfold revalidated at h
  simp only at h
  rw [AssignmentState.isTerminal_eq_not_isLive, hlive] at h
  simp only [Bool.not_true, Bool.false_eq_true, if_false] at h
  split at h
  · next hok => exact hok
  · split at h
    · split at h
      · next hstate =>
          rw [hstate] at hholds
          cases hholds
      · cases h
    · cases h

/-- The record of an assignment once it is revalidated. -/
def afterRevalidation (s : FabricState) (b : Bounds) (now : Micros) (r : AssignmentRecord) :
    AssignmentRecord :=
  (s.revalidated b r now).getD r

theorem SameEvidence.afterRevalidation {s t : FabricState} (h : SameEvidence s t) (b : Bounds)
    (now : Micros) : t.afterRevalidation b now = s.afterRevalidation b now := by
  funext r
  unfold FabricState.afterRevalidation
  rw [h.revalidated]

end FabricState

namespace Fabric

/-- A visit that succeeded revalidated its assignment. -/
theorem revalidateOne_ok {c : FabricConfig} {now : Micros} {id : AssignmentId}
    {report report' : RevalidationReport} {m m' : Impl}
    (h : (revalidateOne c now id report).exec m = (.ok report', m')) :
    m'.state.assignments.find? id =
      (m.state.assignments.find? id).map (m.state.afterRevalidation c.bounds now) := by
  rcases revalidateOne_exec c now id report m with ⟨_, h', hnone⟩ | ⟨r, r', out, hr, hr', ho, h'⟩
  · rw [h'] at h
    cases h
    cases hr : m.state.assignments.find? id with
    | none => rfl
    | some r =>
        rw [Option.map_some, FabricState.afterRevalidation, hnone r hr]
        rfl
  · rw [h'] at h
    cases ho with
    | failed => cases h
    | stored =>
        cases h
        rw [hr, Option.map_some, FabricState.afterRevalidation, hr', Option.getD_some]
        have hid : r'.id = id := by
          rw [FabricState.revalidated_id hr', ← key_assignment, Table.key_of_find? hr]
        simp only [FabricState.storing_assignments]
        rw [← hid, ← key_assignment]
        exact Table.find?_insert_self _ _

/-- The loop revalidates what it visits, in the state it began in, and leaves the rest. -/
theorem revalidateLoop_ok {c : FabricConfig} {now : Micros} {cancel : CancelToken} {polls : Nat}
    {report report' : RevalidationReport} {ids : List AssignmentId} {m m' : Impl}
    (hnodup : ids.Nodup)
    (h : (revalidateLoop c now cancel polls report ids).exec m = (.ok report', m')) :
    m.state.SameEvidence m'.state ∧
      ∀ id, m'.state.assignments.find? id =
        if id ∈ ids then
          (m.state.assignments.find? id).map (m.state.afterRevalidation c.bounds now)
        else m.state.assignments.find? id := by
  induction ids generalizing m polls report with
  | nil =>
      cases h
      exact ⟨.refl _, fun id ↦ by rw [if_neg List.not_mem_nil]⟩
  | cons id ids ih =>
      obtain ⟨hid, hnodup⟩ := List.nodup_cons.mp hnodup
      unfold revalidateLoop at h
      obtain ⟨_, _, hcheck, h₁⟩ := exec_bind_ok h
      obtain ⟨-, rfl⟩ := exec_check_ok hcheck
      obtain ⟨report₁, m₁, hone, h₂⟩ := exec_bind_ok h₁
      have hvisit := revalidateOne_ok hone
      obtain ⟨hevidence, hother⟩ := revalidateOne_frame c now id report _
      rw [hone] at hevidence hother
      obtain ⟨hevidence', hrest⟩ := ih hnodup h₂
      refine ⟨hevidence.trans hevidence', fun id' ↦ ?_⟩
      rw [hrest id', hevidence.afterRevalidation]
      by_cases hsame : id' = id
      · subst hsame
        rw [if_neg hid, if_pos List.mem_cons_self, hvisit]
      · rw [hother id' hsame]
        simp only [List.mem_cons, hsame, false_or]

/-- A revalidation that succeeded revalidated every live assignment. -/
theorem revalidateLocked_ok {c : FabricConfig} {now : Micros} {cancel : CancelToken}
    {report : RevalidationReport} {m m' : Impl}
    (h : (revalidateLocked c now cancel).exec m = (.ok report, m')) :
    m.state.SameEvidence m'.state ∧
      ∀ id, m'.state.assignments.find? id =
        (m.state.assignments.find? id).map (m.state.afterRevalidation c.bounds now) := by
  unfold revalidateLocked at h
  obtain ⟨_, _, hs, h⟩ := exec_bind_ok h
  cases hs
  obtain ⟨_, m₁, hloop, h⟩ := exec_bind_ok h
  cases h
  obtain ⟨hevidence, hfind⟩ := revalidateLoop_ok (FabricState.nodup_liveIds _) hloop
  refine ⟨hevidence, fun id ↦ ?_⟩
  rw [hfind id]
  split
  · rfl
  · next hdead =>
      cases hr : m.state.assignments.find? id with
      | none => rfl
      | some r =>
          -- an assignment the loop does not list is terminal
          have hterminal : r.state.isTerminal = true := by
            rw [AssignmentState.isTerminal_eq_not_isLive]
            by_contra hlive
            refine hdead (List.mem_map.mpr ⟨r, List.mem_filter.mpr
              ⟨Table.mem_values_of_find? hr, by simpa using hlive⟩, ?_⟩)
            exact Table.key_of_find? hr
          rw [Option.map_some, FabricState.afterRevalidation, FabricState.revalidated,
            if_pos hterminal]
          rfl

/-- An ingestion that succeeded with a delivery ends in a successful revalidation against it. -/
theorem ingest_ok {c : FabricConfig} {accept : FabricState → Result (Option Delivery)}
    {now : Micros} {m m' : Impl} {u : Unit} {d : Delivery}
    (h : (ingest c accept now).exec m = (.ok u, m')) (hd : accept m.state = .ok (some d)) :
    d.next.SameEvidence m'.state ∧ ∀ id, m'.state.assignments.find? id =
      (d.next.assignments.find? id).map (d.next.afterRevalidation c.bounds now) := by
  unfold ingest at h
  obtain ⟨_, _, hs, h₁⟩ := exec_bind_ok h
  cases hs
  obtain ⟨_, _, hlift, h₂⟩ := exec_bind_ok h₁
  obtain ⟨hd', rfl⟩ := exec_liftExcept_ok hlift
  rw [hd] at hd'
  cases hd'
  obtain ⟨_, m₁, hdeliver, h₃⟩ := exec_bind_ok h₂
  unfold revalidateNow at h₃
  obtain ⟨report, m₂, hre, h₄⟩ := exec_bind_ok h₃
  cases h₄
  rw [← deliver_ok hdeliver]
  exact revalidateLocked_ok hre

/-- An ingestion behind the checks of every mutating operation. -/
private theorem accepting_ingest_ok {c : FabricConfig}
    {accept : FabricState → Result (Option Delivery)} {now : Micros} {m m' : Impl} {u : Unit}
    {d : Delivery} (h : (do checkAccepting; ingest c accept now).exec m = (.ok u, m'))
    (hd : accept m.state = .ok (some d)) :
    d.next.SameEvidence m'.state ∧ ∀ id, m'.state.assignments.find? id =
      (d.next.assignments.find? id).map (d.next.afterRevalidation c.bounds now) := by
  obtain ⟨_, _, hcheck, h₁⟩ := exec_bind_ok h
  obtain ⟨rfl, -, -⟩ := checkAccepting_ok hcheck
  exact ingest_ok h₁ hd

end Fabric

/-- A step that revalidates and succeeds ends with a successful revalidation of the assignments
it began with, against the evidence it delivered. -/
theorem Step.exec_revalidation {c : FabricConfig} {m : Impl} {st : Step} {base : FabricState}
    {t : Micros} {a : Option AssignmentRecord}
    (hop : st.op.revalidation c st.now m.state = some (base, t))
    (hok : (st.exec c m).1 = .ok a) :
    base.assignments = m.state.assignments ∧ base.SameEvidence (st.next c m).state ∧
      ∀ id, (st.next c m).state.assignments.find? id =
        (base.assignments.find? id).map (base.afterRevalidation c.bounds t) := by
  have hstate : m.state = (m.facing st.faults).state := rfl
  rw [hstate] at hop ⊢
  unfold Step.next
  unfold Step.exec at hok ⊢
  generalize m.facing st.faults = m at hop hok ⊢
  cases hx : (st.op.program c st.now).exec m with
  | mk r m' =>
      rw [hx] at hok
      simp only at hok
      subst hok
      -- what the operation delivers keeps the assignments
      have hdelivery : ∀ d t', st.op.delivery c st.now m.state = .ok (some d) →
          some (d.next, t') = some (base, t) → base.assignments = m.state.assignments := by
        intro d t' hd heq
        cases heq
        rw [Op.delivery_next hd]
      unfold Op.revalidation at hop
      generalize hst : st.op = op at hx hop hdelivery
      cases op <;> simp only [reduceCtorEq] at hop
      case revalidate cancel =>
        cases hop
        obtain ⟨_, _, hre, h₁⟩ := exec_bind_ok hx
        cases h₁
        obtain ⟨_, _, hget, h₂⟩ := exec_bind_ok hre
        cases hget
        obtain ⟨_, _, hcheck, h₃⟩ := exec_bind_ok h₂
        obtain ⟨-, rfl⟩ := exec_check_ok hcheck
        exact ⟨rfl, Fabric.revalidateLocked_ok h₃⟩
      all_goals
        split at hop
        · next d hd =>
            obtain ⟨_, _, hin, h₁⟩ := exec_bind_ok hx
            cases h₁
            refine ⟨hdelivery d _ hd hop, ?_⟩
            cases hop
            first
            | exact Fabric.accepting_ingest_ok hin hd
            | obtain ⟨_, _, hget, h₂⟩ := exec_bind_ok hin
              cases hget
              obtain ⟨_, _, hcheck, h₃⟩ := exec_bind_ok h₂
              obtain ⟨-, rfl⟩ := exec_check_ok hcheck
              exact Fabric.ingest_ok h₃ hd
        · cases hop

/-- After every successful delivery of evidence or withdrawal, and after every revalidation
that succeeded, each holder of authority is valid at the clock reading of the revalidation, and
each assignment valid at it is unchanged. -/
theorem revalidation_sound_and_complete (c : FabricConfig) (m : Impl) (st : Step)
    (base : FabricState) (t : Micros) (a : Option AssignmentRecord)
    (hop : st.op.revalidation c st.now m.state = some (base, t))
    (hok : (st.exec c m).1 = .ok a) :
    (∀ r ∈ (st.next c m).state.assignments.values, r.state.holdsAuthority = true →
        (st.next c m).state.assignmentValidity r t = .ok) ∧
      ∀ r ∈ m.state.assignments.values, (st.next c m).state.assignmentValidity r t = .ok →
        (st.next c m).state.assignments.find? r.id = some r := by
  obtain ⟨hassignments, hevidence, hfind⟩ := st.exec_revalidation hop hok
  refine ⟨fun r hr hholds ↦ ?_, fun r hr hvalid ↦ ?_⟩
  · have hr' := Table.mem_values.mp hr
    rw [hfind] at hr'
    obtain ⟨r₀, hr₀, heq⟩ := Option.map_eq_some_iff.mp hr'
    unfold FabricState.afterRevalidation at heq
    rw [hevidence.assignmentValidity]
    cases hre : base.revalidated c.bounds r₀ t with
    | none =>
        rw [hre, Option.getD_none] at heq
        subst heq
        exact FabricState.valid_of_revalidated hre hholds
    | some r' =>
        rw [hre, Option.getD_some] at heq
        subst heq
        rw [FabricState.revalidated_holdsAuthority hre] at hholds
        cases hholds
  · rw [hevidence.assignmentValidity] at hvalid
    rw [hfind, hassignments, ← key_assignment, Table.mem_values.mp hr, Option.map_some,
      FabricState.afterRevalidation, FabricState.revalidated_of_valid hvalid]
    rfl

/-- A revalidation of one valid holder. -/
theorem revalidation_sound_and_complete_placed :
    let m := run {} Sample.placed
    let st := Sample.step (.revalidate .never)
    (∀ r ∈ (st.next {} m).state.assignments.values, r.state.holdsAuthority = true →
        (st.next {} m).state.assignmentValidity r 2 = .ok) ∧
      ∀ r ∈ m.state.assignments.values, (st.next {} m).state.assignmentValidity r 2 = .ok →
        (st.next {} m).state.assignments.find? r.id = some r :=
  revalidation_sound_and_complete {} (run {} Sample.placed) (Sample.step (.revalidate .never))
    (run {} Sample.placed).state 2 none rfl (by decide +kernel)

/-- A revalidation that a durable call stops leaves an invalid holder, though nothing cancelled
it. -/
theorem revalidation_unsound_when_failed :
    let m := run {} Sample.placed
    let st : Step := ⟨.revalidate .never, fun _ ↦ 2000, [.lost]⟩
    (st.exec {} m).1 = .error Log.unavailable ∧
      ∃ r ∈ (st.next {} m).state.assignments.values, r.state.holdsAuthority = true ∧
        (st.next {} m).state.assignmentValidity r 2000 = .topologyStale := by
  decide +kernel

end OffloadFabric
