import OffloadFabric.Fabric.Transitions
import Mathlib.Data.List.Chain

/-!
# Histories of assignments

The history entries that operations push by hand, `src/fabric.cpp:2216-2257,2738-2761,3532-3565,
3803-3817,3966-3972,4071-4133`, against all transitions that a run took an assignment through.
-/

namespace OffloadFabric

open Lib Lib.Fallible FabricM FabricState

/-! ## Histories that are trimmed -/

/-- The newest entries of a history that are kept, `src/fabric.cpp:1546-1552`. -/
def newest (b : Bounds) (history : List TransitionRecord) : List TransitionRecord :=
  history.drop (history.length - b.maxHistoryPerAssignment.toNat)

/-- Each transition goes on from where the one before it ended. -/
def Unbroken (history : List TransitionRecord) : Prop :=
  history.IsChain fun a b ↦ a.target = b.source

/-- A history that begins with the transitions of a new assignment. -/
def Begins (history : List TransitionRecord) : Prop :=
  ∃ a d rest, history = a :: d :: rest ∧ a.source = .planned ∧ a.target = .authorized ∧
    d.source = .authorized ∧ d.target = .dispatched

namespace AssignmentRecord

/-- The transitions of a new assignment, `src/fabric.cpp:3535-3540`. -/
def opening (r : AssignmentRecord) : List TransitionRecord :=
  [⟨.planned, .authorized, .ok, r.updatedAt, r.fence⟩,
    ⟨.authorized, .dispatched, r.stateReason, r.updatedAt, r.fence⟩]

/-- The transition that entered a record from a state. -/
def entry (r : AssignmentRecord) (source : AssignmentState) : TransitionRecord :=
  ⟨source, r.state, r.stateReason, r.updatedAt, r.fence⟩

end AssignmentRecord

/-! ## What is stored -/

theorem Op.places_of_authorized {c : FabricConfig} {now : ClockReadings} {s : FabricState}
    {op : Op} {p : AssignmentPlan} {options : ApplyOptions} {auth : Authorization} {t : Micros}
    (h : Authorized c now s op p options auth t) : op.places = true := by
  have hasked := h.asked
  cases op with
  | apply _ _ | applyPlan _ _ | replace _ => rfl
  | _ => cases hasked

private theorem Op.places_of_revalidation {c : FabricConfig} {now : ClockReadings}
    {s base : FabricState} {op : Op} {t : Micros}
    (h : op.revalidation c now s = some (base, t)) : op.places = false := by
  cases op with
  | apply _ _ | applyPlan _ _ | replace _ => cases h
  | _ => rfl

theorem Renews.assignments {s t : FabricState} {lease : LeaseId} {attempt : AttemptId}
    {fence : FencingToken} (h : s.Renews lease attempt fence t) :
    t.assignments = s.assignments := by
  obtain ⟨s₁, s₂, h₁, h₂, h₃⟩ := h
  cases h₁
  cases h₂
  cases h₃
  rfl

/-- How the history of a stored assignment comes from the assignment that was found. -/
inductive Grown (b : Bounds) (r v : AssignmentRecord) : Prop
  | trimmedAfter (h : v.history = newest b (r.history ++ [v.entry r.state]))
  | trimmedBefore (h : v.history = newest b r.history ++ [v.entry r.state])

/-- An accepted report pushes its transition behind the trim. -/
theorem effectStep_history {b : Bounds} {e : EffectReport} {r r' : AssignmentRecord}
    {now : Micros} (h : effectStep b e r now = .ok (some r')) :
    r'.id = r.id ∧ Grown b r r' := by
  unfold effectStep at h
  split at h
  · cases h
  · obtain ⟨_, -, h⟩ := bind_eq_ok.mp h
    split at h
    · cases h
    · obtain ⟨_, -, h⟩ := bind_eq_ok.mp h
      cases h
      unfold AssignmentRecord.applyOutcome
      cases e.outcome with
      | applied | rejected | failed | unknown => exact ⟨rfl, .trimmedBefore rfl⟩

/-- What a stored assignment is: a placement stores a new one as dispatched, and every other
one is a transition of what was found. -/
theorem Stores.history {c : FabricConfig} {now : ClockReadings} {s₀ s : FabricState} {op : Op}
    {v : RecordedAssignment} (h : Stores c now s₀ s op v) :
    (op.places = true ∧ v.record.state = .dispatched) ∧
        v.record.history = newest c.bounds v.record.opening ∨
      ¬ (op.places = true ∧ v.record.state = .dispatched) ∧
        ∃ r, s.assignments.find? v.record.id = some r ∧ Grown c.bounds r v.record := by
  cases h with
  | revalidated hop _ hfind _ hr =>
      refine .inr ⟨fun hplaces ↦ ?_, ?_⟩
      · rw [Op.places_of_revalidation hop] at hplaces
        cases hplaces.1
      · obtain ⟨-, -, ⟨-, -, rfl⟩ | ⟨-, rfl⟩⟩ := revalidated_eq_some hr
        · exact ⟨_, hfind, .trimmedAfter rfl⟩
        · exact ⟨_, hfind, .trimmedAfter rfl⟩
  | revoked _ hfind _ _ =>
      refine .inr ⟨(fun hplaces ↦ by cases hplaces.1), _, ?_, .trimmedAfter rfl⟩
      rw [AssignmentRecord.enter_id, ← key_assignment, Table.key_of_find? hfind]
      exact hfind
  | @reauthorized request r validity lease attempt fence hs hfind _ =>
      refine .inr ⟨(fun hplaces ↦ by cases hplaces.1), r, ?_, .trimmedAfter rfl⟩
      have hid : r.id = request.assignment := Table.key_of_find? hfind
      rw [Renews.assignments hs, ← hfind, ← hid]
      rfl
  | @reported report r r' _ hfind _ hr =>
      obtain ⟨hid, hgrown⟩ := effectStep_history hr
      refine .inr ⟨(fun hplaces ↦ by cases hplaces.1), r, ?_, hgrown⟩
      rw [hid, ← key_assignment, Table.key_of_find? hfind]
      exact hfind
  | superseded ha _ _ hfind =>
      refine .inr ⟨(fun hplaces ↦ by cases hplaces.2), _, ?_, .trimmedAfter rfl⟩
      rw [AssignmentRecord.enter_id, ← key_assignment, Table.key_of_find? hfind]
      exact hfind
  | created ha _ _ => exact .inl ⟨⟨Op.places_of_authorized ha, rfl⟩, rfl⟩

/-! ## All transitions of an assignment -/

/-- A record of a run with the transitions that led to it since it was created, in order. -/
inductive Traced (c : FabricConfig) : List Step → AssignmentRecord → List TransitionRecord → Prop
  | created {steps : List Step} {st : Step} {s : FabricState} {v : RecordedAssignment}
      (h : st.Storing c (run c steps) s v)
      (hnew : st.op.places = true ∧ v.record.state = .dispatched) :
      Traced c (steps ++ [st]) v.record v.record.opening
  | entered {steps : List Step} {st : Step} {s : FabricState} {v : RecordedAssignment}
      {r : AssignmentRecord} {full : List TransitionRecord}
      (h : st.Storing c (run c steps) s v)
      (hold : ¬ (st.op.places = true ∧ v.record.state = .dispatched))
      (hfind : s.assignments.find? v.record.id = some r) (ht : Traced c (steps ++ [st]) r full) :
      Traced c (steps ++ [st]) v.record (full ++ [v.record.entry r.state])
  | suspended {steps : List Step} {st : Step} {boot : BootId} {r : AssignmentRecord}
      {full : List TransitionRecord} (hop : st.op = .start boot)
      (ht : Traced c (steps ++ [st]) r full) :
      Traced c (steps ++ [st]) (r.enter c.bounds .suspended .restartAuthorityReset (st.now 0))
        (full ++ [⟨r.state, .suspended, .restartAuthorityReset, st.now 0, r.fence⟩])
  | kept {steps : List Step} {st : Step} {r : AssignmentRecord} {full : List TransitionRecord}
      (ht : Traced c steps r full) : Traced c (steps ++ [st]) r full

/-- What the transitions of a record and its history have in common. -/
structure Recounts (b : Bounds) (r : AssignmentRecord) (full : List TransitionRecord) : Prop where
  begins : Begins full
  unbroken : Unbroken full
  last : full.getLast?.map TransitionRecord.target = some r.state
  suffix : r.history <:+ full
  nonempty : r.history ≠ []
  whole : full.length ≤ b.maxHistoryPerAssignment.toNat → r.history = full

theorem newest_suffix (b : Bounds) (history : List TransitionRecord) :
    newest b history <:+ history := List.drop_suffix _ _

theorem newest_of_le {b : Bounds} {history : List TransitionRecord}
    (h : history.length ≤ b.maxHistoryPerAssignment.toNat) : newest b history = history := by
  unfold newest
  rw [Nat.sub_eq_zero_of_le h, List.drop_zero]

/-- At least the newest entry is kept. -/
theorem newest_ne_nil {b : Bounds} {history : List TransitionRecord}
    (hb : b.maxHistoryPerAssignment ≠ 0) (h : history ≠ []) : newest b history ≠ [] := by
  have hmax : b.maxHistoryPerAssignment.toNat ≠ 0 := fun h0 ↦ hb (UInt64.toNat_inj.mp h0)
  have hlen := List.length_pos_iff.mpr h
  unfold newest
  rw [Ne, List.drop_eq_nil_iff]
  omega

namespace Recounts

variable {b : Bounds} {r v : AssignmentRecord} {full : List TransitionRecord}

theorem opening (hb : b.maxHistoryPerAssignment ≠ 0) (hstate : v.state = .dispatched)
    (h : v.history = newest b v.opening) : Recounts b v v.opening where
  begins := ⟨_, _, [], rfl, rfl, rfl, rfl, rfl⟩
  unbroken := List.isChain_pair.mpr rfl
  last := by rw [hstate]; rfl
  suffix := h ▸ newest_suffix b _
  nonempty := h ▸ newest_ne_nil hb (List.cons_ne_nil _ _)
  whole hle := h.trans (newest_of_le hle)

/-- A further transition, from the state the record was in. -/
theorem grown (hb : b.maxHistoryPerAssignment ≠ 0) (h : Recounts b r full) {t : TransitionRecord}
    (hsource : t.source = r.state) (htarget : t.target = v.state)
    (hv : v.history = newest b (r.history ++ [t]) ∨ v.history = newest b r.history ++ [t]) :
    Recounts b v (full ++ [t]) where
  begins := by
    obtain ⟨a, d, rest, rfl, hb⟩ := h.begins
    exact ⟨a, d, rest ++ [t], rfl, hb⟩
  unbroken := by
    refine List.IsChain.append h.unbroken (.singleton t) fun x hx y hy ↦ ?_
    have hlast := h.last
    rw [hx, Option.map_some, Option.some.injEq] at hlast
    cases hy
    rw [hlast, hsource]
  last := by
    rw [List.getLast?_concat, Option.map_some, htarget]
  suffix := by
    obtain ⟨before, hbefore⟩ := h.suffix
    have happend : r.history ++ [t] <:+ full ++ [t] :=
      ⟨before, by rw [← List.append_assoc, hbefore]⟩
    rcases hv with hv | hv
    · exact hv ▸ (newest_suffix b _).trans happend
    · obtain ⟨dropped, hdropped⟩ := newest_suffix b r.history
      exact hv ▸ List.IsSuffix.trans ⟨dropped, by rw [← List.append_assoc, hdropped]⟩ happend
  nonempty := by
    rcases hv with hv | hv
    · exact hv ▸ newest_ne_nil hb (by simp)
    · simp [hv]
  whole hle := by
    rw [List.length_append, List.length_singleton] at hle
    have hr := h.whole (by omega)
    rcases hv with hv | hv
    · rw [hv, hr, newest_of_le (by rwa [List.length_append, List.length_singleton])]
    · rw [hv, hr, newest_of_le (by omega)]

end Recounts

/-- The history of a record recounts every trace of it. -/
theorem Traced.recounts {c : FabricConfig} (hb : c.bounds.maxHistoryPerAssignment ≠ 0)
    {steps : List Step} {r : AssignmentRecord} {full : List TransitionRecord}
    (h : Traced c steps r full) : Recounts c.bounds r full := by
  induction h with
  | created h hnew =>
      rcases h.stores.history with ⟨-, hhistory⟩ | ⟨hold, -⟩
      · exact .opening hb hnew.2 hhistory
      · exact absurd hnew hold
  | entered h hold hfind _ ih =>
      rcases h.stores.history with ⟨hnew, -⟩ | ⟨-, r', hfind', hgrown⟩
      · exact absurd hnew hold
      · rw [hfind] at hfind'
        cases hfind'
        refine ih.grown hb rfl rfl ?_
        cases hgrown with
        | trimmedAfter h => exact .inl h
        | trimmedBefore h => exact .inr h
  | suspended _ _ ih => exact ih.grown hb rfl rfl (.inl rfl)
  | kept _ ih => exact ih

/-! ## Every run -/

/-- A runtime that runs was started within valid bounds. -/
theorem validate_of_running {c : FabricConfig} (steps : List Step)
    (h : (run c steps).running = true) : c.bounds.validate = .ok () := by
  revert h
  refine run_induction (P := fun _ m ↦ m.running = true → c.bounds.validate = .ok ())
    (fun h ↦ by cases h) (fun steps st ih h ↦ ?_) steps
  cases hrun : (run c steps).running with
  | true => exact ih hrun
  | false =>
      by_cases hstart : ∃ boot, st.op = .start boot
      · obtain ⟨boot, hop⟩ := hstart
        cases hvalid : c.bounds.validate with
        | ok u => rfl
        | error e =>
            have hidle : ((run c steps).facing st.faults).running = false := hrun
            unfold Step.next Step.exec at h
            rw [hop] at h
            simp only [Op.program, Fabric.start, exec_bind, exec_get, exec_check, exec_modify,
              exec_liftExcept, hidle, if_true, hvalid] at h
            cases h
      · rcases st.next_idle c _ (fun boot hop ↦ hstart ⟨boot, hop⟩) hrun with ⟨b, heq⟩ | ⟨-, heq⟩
        · rw [heq] at h
          exact absurd (hrun.symm.trans h) (by decide)
        · rw [heq] at h
          cases h

theorem maxHistory_ne_zero {b : Bounds} (h : b.validate = .ok ()) :
    b.maxHistoryPerAssignment ≠ 0 := by
  intro hzero
  unfold Bounds.validate at h
  simp only [require_bind_eq_ok, hzero, ne_eq, not_true, false_and, and_false] at h

/-- Every assignment of every run has a trace. -/
theorem exists_traced (c : FabricConfig) (steps : List Step) :
    (run c steps).Every c fun r ↦ c.bounds.validate = .ok () ∧ ∃ full, Traced c steps r full := by
  refine run_every (E := fun steps r ↦ c.bounds.validate = .ok () ∧ ∃ full, Traced c steps r full)
    ?_ ?_ ?_ steps
  · rintro steps st r ⟨hvalid, full, ht⟩
    exact ⟨hvalid, full, .kept ht⟩
  · intro steps st s v hrun _ hs hv
    refine ⟨validate_of_running steps hrun, ?_⟩
    rcases hv.stores.history with ⟨hnew, -⟩ | ⟨hold, r, hfind, -⟩
    · exact ⟨_, .created hv hnew⟩
    · obtain ⟨-, full, ht⟩ := hs.find? hfind
      exact ⟨_, .entered hv hold hfind ht⟩
  · rintro steps st boot r hop ⟨hvalid, full, ht⟩ _ _
    exact ⟨hvalid, _, .suspended hop ht⟩

/-- **Histories are unbroken chains.** In every state of every run the history of an assignment
is not empty, goes from transition to transition and ends in the state the assignment is in. It
is the end of all transitions that led there, the whole of them while they are within the
bound, and while it is the whole it begins with the transitions of a new assignment. -/
theorem histories_unbroken (c : FabricConfig) (steps : List Step) {r : AssignmentRecord}
    (hr : r ∈ (run c steps).state.assignments.values) :
    r.history ≠ [] ∧ Unbroken r.history ∧
      r.history.getLast?.map TransitionRecord.target = some r.state ∧
      (∃ full, Traced c steps r full) ∧
      ∀ full, Traced c steps r full → r.history <:+ full ∧
        (full.length ≤ c.bounds.maxHistoryPerAssignment.toNat → r.history = full) ∧
        (r.history = full → Begins r.history) := by
  obtain ⟨hvalid, full, ht⟩ := (exists_traced c steps).memory r hr
  have hb := maxHistory_ne_zero hvalid
  have h := ht.recounts hb
  refine ⟨h.nonempty, h.unbroken.suffix h.suffix, ?_, ⟨full, ht⟩, fun full' ht' ↦ ?_⟩
  · obtain ⟨before, hbefore⟩ := h.suffix
    have hlast := h.last
    rwa [← hbefore, List.getLast?_append_of_ne_nil _ h.nonempty] at hlast
  · have h' := ht'.recounts hb
    exact ⟨h'.suffix, h'.whole, fun heq ↦ heq ▸ h'.begins⟩

private theorem Sample.places_first :
    ((run {} Sample.placed).state.assignments.find? Sample.first).isSome = true := by
  decide +kernel

/-- The history of the placement of the small deployment. -/
theorem histories_unbroken_placed :
    ∃ r ∈ (run {} Sample.placed).state.assignments.values, r.history ≠ [] ∧
      Unbroken r.history ∧ r.history.getLast?.map TransitionRecord.target = some r.state := by
  obtain ⟨r, hr⟩ := Option.isSome_iff_exists.mp Sample.places_first
  have hmem := Table.mem_values_of_find? hr
  obtain ⟨hnonempty, hunbroken, hlast, -⟩ := histories_unbroken {} Sample.placed hmem
  exact ⟨r, hmem, hnonempty, hunbroken, hlast⟩

end OffloadFabric
