import OffloadFabric.Fabric.Counters
import OffloadFabric.Fabric.Ordinals
import OffloadFabric.Fabric.StoreInvariant

/-!
# Identities of live assignments

The counters of a running runtime have passed the ordinal, the lease and the attempt of every
live assignment: a rebuilding raises them over those of the live records
(`src/fabric.cpp:930-948`), the issue functions only raise them (`src/fabric.cpp:103-128`), and
what is stored was issued. So nothing that is issued identifies a live assignment.
-/

namespace OffloadFabric

open Lib FabricState

/-- The counters of a state have passed what identifies an assignment. -/
structure AssignmentRecord.Counted (s : FabricState) (r : AssignmentRecord) : Prop where
  ordinal : parseOrdinal r.id.value (ascii "as-") ≤ s.nextAssignmentOrdinal
  lease : r.lease ≤ s.nextLease
  attempt : r.attempt ≤ s.nextAttempt

namespace FabricState

variable {s t u : FabricState} {r : AssignmentRecord}

/-- The counters of every live assignment have been passed. -/
def Counts (s : FabricState) : Prop := s.Every fun r ↦ r.state.isLive = true → r.Counted s

/-- No counter of assignments is lower. -/
structure Raises (s t : FabricState) : Prop where
  ordinal : s.nextAssignmentOrdinal ≤ t.nextAssignmentOrdinal
  lease : s.nextLease ≤ t.nextLease
  attempt : s.nextAttempt ≤ t.nextAttempt

namespace Raises

theorem refl (s : FabricState) : Raises s s := ⟨le_refl _, le_refl _, le_refl _⟩

theorem trans (h : Raises s t) (h' : Raises t u) : Raises s u :=
  ⟨h.ordinal.trans h'.ordinal, h.lease.trans h'.lease, h.attempt.trans h'.attempt⟩

theorem of_sameCounters (h : SameCounters s t) : Raises s t :=
  ⟨h.nextAssignmentOrdinal.ge, h.nextLease.ge, h.nextAttempt.ge⟩

theorem counted (h : Raises s t) (hr : r.Counted s) : r.Counted t :=
  ⟨hr.ordinal.trans h.ordinal, hr.lease.trans h.lease, hr.attempt.trans h.attempt⟩

end Raises

/-- A counter that is issued from is raised. -/
theorem lt_of_checkedAdd {a b : UInt64} (h : checkedAdd a 1 = some b) : a < b := by
  obtain ⟨-, hb⟩ := checkedAdd_eq_some.mp h
  rw [UInt64.lt_iff_toNat_lt, hb]
  exact Nat.lt_succ_self _

theorem Issue.raises {i : Issued} (h : s.Issue i t) : Raises s t := by
  cases h with
  | assignment _ _ h _ => exact ⟨(lt_of_checkedAdd h).le, le_refl _, le_refl _⟩
  | lease _ h => exact ⟨le_refl _, (lt_of_checkedAdd h).le, le_refl _⟩
  | attempt _ h => exact ⟨le_refl _, le_refl _, (lt_of_checkedAdd h).le⟩
  | fence _ _ => exact ⟨le_refl _, le_refl _, le_refl _⟩

/-- An issued identifier spells its ordinal, which was passed only by being issued. -/
theorem Issue.ordinal {id : AssignmentId} (h : s.Issue (.assignment id) t) :
    parseOrdinal id.value (ascii "as-") = t.nextAssignmentOrdinal ∧
      s.nextAssignmentOrdinal < t.nextAssignmentOrdinal := by
  cases h with
  | assignment ordinal _ h hid =>
    refine ⟨?_, lt_of_checkedAdd h⟩
    unfold Token.parse at hid
    split at hid
    · cases hid
      exact parseOrdinal_hex64 _ ordinal
    · cases hid

theorem Issue.lease_lt {lease : LeaseId} (h : s.Issue (.lease lease) t) :
    lease = t.nextLease ∧ s.nextLease < lease := by
  cases h with
  | lease _ h => exact ⟨rfl, lt_of_checkedAdd h⟩

theorem Issue.attempt_lt {attempt : AttemptId} (h : s.Issue (.attempt attempt) t) :
    attempt = t.nextAttempt ∧ s.nextAttempt < attempt := by
  cases h with
  | attempt _ h => exact ⟨rfl, lt_of_checkedAdd h⟩

/-- An identity that a state issues is above all that its counters have passed. -/
structure Fresh (s : FabricState) (i : Identity) : Prop where
  ordinal : s.nextAssignmentOrdinal < parseOrdinal i.id.value (ascii "as-")
  lease : s.nextLease < i.lease
  attempt : s.nextAttempt < i.attempt

theorem Issues.fresh {i : Identity} (h : s.Issues i t) : s.Fresh i := by
  obtain ⟨s₁, s₂, s₃, h₁, h₂, h₃, -⟩ := h
  refine ⟨?_, ?_, ?_⟩
  · rw [h₁.ordinal.1]
    exact h₁.ordinal.2
  · exact h₁.raises.lease.trans_lt h₂.lease_lt.2
  · exact (h₁.raises.trans h₂.raises).attempt.trans_lt h₃.attempt_lt.2

/-- What was issued, the counters have passed. -/
theorem Issues.passed {i : Identity} (h : s.Issues i t) :
    parseOrdinal i.id.value (ascii "as-") ≤ t.nextAssignmentOrdinal ∧
      i.lease ≤ t.nextLease ∧ i.attempt ≤ t.nextAttempt := by
  obtain ⟨s₁, s₂, s₃, h₁, h₂, h₃, h₄⟩ := h
  refine ⟨?_, ?_, ?_⟩
  · rw [h₁.ordinal.1]
    exact (h₂.raises.trans (h₃.raises.trans h₄.raises)).ordinal
  · rw [h₂.lease_lt.1]
    exact (h₃.raises.trans h₄.raises).lease
  · rw [h₃.attempt_lt.1]
    exact h₄.raises.attempt

/-- What is fresh identifies no assignment that was counted. -/
theorem Fresh.ne {i : Identity} (h : s.Fresh i) (hr : r.Counted s) :
    r.id ≠ i.id ∧ r.lease ≠ i.lease ∧ r.attempt ≠ i.attempt := by
  refine ⟨fun heq ↦ ?_, (hr.lease.trans_lt h.lease).ne, (hr.attempt.trans_lt h.attempt).ne⟩
  have hlt := hr.ordinal.trans_lt h.ordinal
  rw [heq] at hlt
  exact lt_irrefl _ hlt

/-! ## Counted states -/

namespace Counts

theorem of_eq (h : s.Counts) (hassignments : t.assignments = s.assignments) (hraises : Raises s t) :
    t.Counts := by
  intro r hr hlive
  rw [hassignments] at hr
  exact hraises.counted (h r hr hlive)

/-- A store keeps the live assignments counted when its own is. -/
theorem insertAssignment (h : s.Counts) (hr : r.state.isLive = true → r.Counted s) :
    (s.insertAssignment r).Counts := by
  have hraises := Raises.of_sameCounters (sameCounters_insertAssignment s r)
  intro r' hr' hlive
  have hfind := Table.mem_values.mp hr'
  rw [insertAssignment_assignments, Table.find?_insert] at hfind
  split at hfind
  · cases hfind
    exact hraises.counted (hr hlive)
  · exact hraises.counted (h r' (Table.mem_values.mpr hfind) hlive)

end Counts

private theorem rebuildRecord_raises (s : FabricState) (r : AssignmentRecord) :
    Raises s (s.rebuildRecord r) := by
  unfold rebuildRecord
  split
  · exact ⟨le_max_left _ _, le_max_left _ _, le_max_left _ _⟩
  · exact .refl s

private theorem foldl_rebuildRecord_counted (rs : List AssignmentRecord) (s : FabricState) :
    Raises s (rs.foldl rebuildRecord s) ∧
      ∀ r ∈ rs, r.state.isLive = true → r.Counted (rs.foldl rebuildRecord s) := by
  induction rs generalizing s with
  | nil => exact ⟨.refl s, fun r hr ↦ absurd hr List.not_mem_nil⟩
  | cons r rs ih =>
    obtain ⟨hraises, hcounted⟩ := ih (s.rebuildRecord r)
    refine ⟨(rebuildRecord_raises s r).trans hraises, fun r' hr' hlive ↦ ?_⟩
    rcases List.mem_cons.mp hr' with rfl | hr'
    · refine hraises.counted ?_
      unfold rebuildRecord
      rw [if_pos hlive]
      exact ⟨le_max_right _ _, le_max_right _ _, le_max_right _ _⟩
    · exact hcounted r' hr' hlive

/-- A rebuilding counts the live assignments, whatever the counters were. -/
theorem counts_rebuildIndexes (s : FabricState) : s.rebuildIndexes.Counts := by
  intro r hr hlive
  rw [rebuildIndexes_assignments] at hr
  have hcounted := (foldl_rebuildRecord_counted s.assignments.values
    { s with exclusiveByClass := ∅, exclusiveByScope := ∅, committed := ∅, scopeSpecs := ∅ }).2
    r hr hlive
  exact ⟨hcounted.ordinal, hcounted.lease, hcounted.attempt⟩

end FabricState

/-! ## Runs -/

/-- What superseding a holder leaves of the counters. -/
theorem FabricState.sameCounters_superseding (s : FabricState) (b : Bounds)
    (replacing : AssignmentId) (k : ExclusivityKey) (now : Micros) :
    SameCounters s (s.superseding b replacing k now) := by
  unfold superseding
  split
  · exact .refl s
  · split
    · exact .refl s
    · exact (sameCounters_insertAssignment _ _).trans (sameCounters_pushReassignment _ _ _ _)

/-- Only a live assignment is left live by an accepted report. -/
theorem Outcome.isLive {outcome : EffectOutcome} {s s' : AssignmentState} (h : Outcome outcome s s')
    (hlive : s'.isLive = true) : s.isLive = true := by
  cases h with
  | applied h => rcases h with rfl | rfl | rfl <;> rfl
  | rejected h => exact h
  | failed h => exact h
  | unknown h => exact h

theorem FabricState.Renews.raises {s t : FabricState} {lease : LeaseId} {attempt : AttemptId}
    {fence : FencingToken} (h : s.Renews lease attempt fence t) :
    Raises s t ∧ t.assignments = s.assignments ∧ lease ≤ t.nextLease ∧ attempt ≤ t.nextAttempt := by
  obtain ⟨s₁, s₂, h₁, h₂, h₃⟩ := h
  refine ⟨h₁.raises.trans (h₂.raises.trans h₃.raises), ?_, ?_, ?_⟩
  · rw [h₃.assignments, h₂.assignments, h₁.assignments]
  · rw [h₁.lease_lt.1]
    exact (h₂.raises.trans h₃.raises).lease
  · rw [h₂.attempt_lt.1]
    exact h₃.raises.attempt

/-- An assignment keeps its identity in a later state of the same authority. -/
theorem AssignmentRecord.Counted.continues {s : FabricState} {r r' : AssignmentRecord}
    (h : r.Counted s) (hr : r.Continues r') : r'.Counted s := by
  unfold Continues at hr
  rw [hr]
  exact ⟨h.ordinal, h.lease, h.attempt⟩

/-- What is stored live was counted before, or just issued. -/
theorem Stores.counted {c : FabricConfig} {now : ClockReadings} {s₀ s : FabricState} {op : Op}
    {v : RecordedAssignment} (h : Stores c now s₀ s op v) (hs : s.Counts)
    (hlive : v.record.state.isLive = true) : v.record.Counted s := by
  cases h with
  | revalidated _ _ hfind _ hr =>
    have hbefore := hs _ (Table.mem_values_of_find? hfind) (revalidated_eq_some hr).1
    exact hbefore.continues (revalidated_continues hr)
  | revoked _ _ _ _ => cases hlive
  | reauthorized hissues hfind hcheck =>
    obtain ⟨-, hassignments, hlease, hattempt⟩ := hissues.raises
    rw [← hassignments] at hfind
    obtain ⟨g, hg⟩ := reauthorizationChecks_eq_ok.mp hcheck
    have hbefore := hs _ (Table.mem_values_of_find? hfind) (by
      rcases hg.state with hstate | hstate
      · rw [hstate]
        rfl
      · rw [hstate]
        rfl)
    exact ⟨hbefore.ordinal, hlease, hattempt⟩
  | reported _ hfind _ hr =>
    obtain ⟨hcontinues, houtcome⟩ := effectStep_eq_some hr
    have hbefore := hs _ (Table.mem_values_of_find? hfind) (houtcome.isLive hlive)
    exact hbefore.continues hcontinues
  | superseded _ _ _ _ => cases hlive
  | @created _ p options auth t i issued _ hi hsuperseding =>
    obtain ⟨hordinal, hlease, hattempt⟩ := hi.passed
    have hraises := Raises.of_sameCounters
      (sameCounters_superseding issued c.bounds auth.replacing ⟨auth.scope, p.cls⟩ t)
    rw [hsuperseding]
    exact ⟨hordinal.trans hraises.ordinal, hlease.trans hraises.lease,
      hattempt.trans hraises.attempt⟩

/-- A change keeps the live assignments counted. -/
theorem Change.counts {c : FabricConfig} {st : Step} {m₀ m m' : Impl} (h : Change c st m₀ m m')
    (hm : m.state.Counts) : m'.state.Counts := by
  cases h with
  | delivered _ hd _ _ =>
    refine hm.of_eq ?_ (.of_sameCounters (sameCounters_delivery hd))
    rw [Op.delivery_next hd]
  | stored _ hv _ _ _ =>
    exact (hm.insertAssignment fun hlive ↦ hv.counted hm hlive).of_eq
      (recordIdempotency_assignments _ _ _ _) (.of_sameCounters (sameCounters_recordIdempotency _ _ _ _))
  | refused _ _ _ _ _ _ =>
    exact hm.of_eq (recordIdempotency_assignments _ _ _ _)
      (.of_sameCounters (sameCounters_recordIdempotency _ _ _ _))
  | issued _ hi => exact hm.of_eq hi.assignments hi.raises
  | stamped => exact hm.of_eq rfl (.of_sameCounters (sameCounters_pushReassignment _ _ _ _))
  | crashed _ => exact fun r hr ↦ absurd hr List.not_mem_nil
  | _ => exact hm

/-- The live assignments of a running runtime are counted. -/
theorem runningInvariant_counts (c : FabricConfig) : RunningInvariant c Counts where
  empty := fun r hr ↦ absurd hr (by simp)
  bare s boot hs := hs.of_eq rfl ⟨le_refl _, le_refl _, le_refl _⟩
  recovered s counter boot :=
    (counts_rebuildIndexes s).of_eq rfl ⟨le_refl _, le_refl _, le_refl _⟩
  suspended s r now hs hfind hlive := hs.insertAssignment fun _ ↦
    (hs r (Table.mem_values_of_find? hfind) hlive).continues (r.continues_enter _ _ _ _)
  change _ _ _ _ hc hm := hc.counts hm

end OffloadFabric
