import OffloadFabric.Fabric.Identities
import OffloadFabric.Properties.Histories

/-!
# The life cycle of assignments

The states that an assignment passes through, from its placement on: what every operation and every
restart enters into its history (`src/fabric.cpp:2216-2257,2738-2761,3532-3565,3803-3817,3966-3972,
4071-4133`), and what of the assignment none of them touches.
-/

namespace OffloadFabric

open Lib Lib.Fallible FabricState

/-! ## Transitions -/

/-- The states an assignment is stored in; it is never stored as planned, authorized or
acknowledged. -/
def AssignmentState.isStored : AssignmentState → Bool
  | .planned | .authorized | .acknowledged => false
  | _ => true

/-- The transitions of the life cycle, with their reasons. -/
inductive Legal : AssignmentState → AssignmentState → ReasonCode → Prop
  | authorized : Legal .planned .authorized .ok
  | dispatched {reason : ReasonCode} (h : reason = .ok ∨ reason = .hostFallbackApplied) :
      Legal .authorized .dispatched reason
  | reauthorized {s next : AssignmentState} (hs : s = .suspended ∨ s = .degraded)
      (hnext : next = .dispatched ∨ next = .degraded) : Legal s next .ok
  | degraded {s : AssignmentState} (hlive : s.isLive = true) (hne : s ≠ .degraded) :
      Legal s .degraded .livenessDegraded
  | suspended {s : AssignmentState} {reason : ReasonCode} (hlive : s.isLive = true)
      (hinvalid : reason ≠ .ok ∧ reason ≠ .livenessDegraded) : Legal s .suspended reason
  | applied {s : AssignmentState} (h : s = .dispatched ∨ s = .degraded) :
      Legal s .appliedVerified .appliedVerified
  | rejected {s : AssignmentState} (hlive : s.isLive = true) : Legal s .rejected .effectRejected
  | failed {s : AssignmentState} (hlive : s.isLive = true) : Legal s .failed .effectFailed
  | unknown {s : AssignmentState} (hlive : s.isLive = true) : Legal s s .effectUnknown
  | superseded {s : AssignmentState} (hholds : s.holdsAuthority = true) :
      Legal s .superseded .superseded
  | revoked {s : AssignmentState} {reason : ReasonCode} (hne : s ≠ .revoked) :
      Legal s .revoked reason

/-- An assignment within its life cycle: it is in a state that is stored, and all transitions of
its history are transitions of the life cycle between such states, but for the two that opened it. -/
structure AssignmentRecord.InCycle (r : AssignmentRecord) : Prop where
  stored : r.state.isStored = true
  legal : ∀ t ∈ r.history, Legal t.source t.target t.reason
  sources : ∀ t ∈ r.history, t.source.isStored = false →
    t.target = .authorized ∨ t.source = .authorized ∧ t.target = .dispatched

namespace AssignmentRecord.InCycle

variable {r v : AssignmentRecord}

/-- A further transition of the life cycle. -/
theorem grown {b : Bounds} (h : r.InCycle) (hgrown : Grown b r v)
    (hlegal : Legal r.state v.state v.stateReason) (hstored : v.state.isStored = true) :
    v.InCycle := by
  have hmem : ∀ t ∈ v.history, t ∈ r.history ∨ t = v.entry r.state := by
    intro t ht
    cases hgrown with
    | trimmedAfter hv =>
      rw [hv] at ht
      have ht := (newest_suffix b _).mem ht
      simpa using ht
    | trimmedBefore hv =>
      rw [hv, List.mem_append, List.mem_singleton] at ht
      exact ht.imp_left fun ht ↦ (newest_suffix b _).mem ht
  refine ⟨hstored, fun t ht ↦ ?_, fun t ht hsource ↦ ?_⟩
  · rcases hmem t ht with ht | rfl
    · exact h.legal t ht
    · exact hlegal
  · rcases hmem t ht with ht | rfl
    · exact h.sources t ht hsource
    · exact absurd (h.stored.symm.trans hsource) (by decide)

end AssignmentRecord.InCycle

/-! ## What is stored -/

/-- An accepted report moves its assignment along the life cycle. -/
theorem effectStep_legal {b : Bounds} {e : EffectReport} {r r' : AssignmentRecord} {now : Micros}
    (h : effectStep b e r now = .ok (some r')) (hstored : r.state.isStored = true) :
    Legal r.state r'.state r'.stateReason ∧ r'.state.isStored = true := by
  unfold effectStep at h
  split at h
  · cases h
  · obtain ⟨_, hlive, h⟩ := bind_eq_ok.mp h
    have hlive := require_eq_ok.mp hlive
    rw [AssignmentState.isTerminal_eq_not_isLive, Bool.not_eq_false'] at hlive
    split at h
    · cases h
    · obtain ⟨_, happlied, h⟩ := bind_eq_ok.mp h
      have happlied := require_eq_ok.mp happlied
      cases h
      unfold AssignmentRecord.applyOutcome
      cases ho : e.outcome with
      | applied =>
        refine ⟨.applied ?_, rfl⟩
        rcases happlied ho with hdispatched | hacknowledged | hdegraded
        · exact .inl hdispatched
        · rw [hacknowledged] at hstored
          cases hstored
        · exact .inr hdegraded
      | rejected => exact ⟨.rejected hlive, rfl⟩
      | failed => exact ⟨.failed hlive, rfl⟩
      | unknown => exact ⟨.unknown hlive, hstored⟩

/-- What is stored is a new assignment, or a transition of the life cycle of the one found. -/
theorem Stores.legal {c : FabricConfig} {now : ClockReadings} {s₀ s : FabricState} {op : Op}
    {v : RecordedAssignment} (h : Stores c now s₀ s op v) (hheld : s₀.Held) :
    (v.record.history = newest c.bounds v.record.opening ∧ v.record.state = .dispatched ∧
        (v.record.stateReason = .ok ∨ v.record.stateReason = .hostFallbackApplied)) ∨
      ∃ r, s.assignments.find? v.record.id = some r ∧ Grown c.bounds r v.record ∧
        (r.state.isStored = true → Legal r.state v.record.state v.record.stateReason ∧
          v.record.state.isStored = true) := by
  cases h with
  | revalidated _ _ hfind _ hr =>
    right
    obtain ⟨hlive, hok, ⟨-, hne, rfl⟩ | ⟨hnot, rfl⟩⟩ := revalidated_eq_some hr
    · exact ⟨_, hfind, .trimmedAfter rfl, fun _ ↦ ⟨.degraded hlive hne, rfl⟩⟩
    · exact ⟨_, hfind, .trimmedAfter rfl, fun _ ↦ ⟨.suspended hlive ⟨hok, hnot⟩, rfl⟩⟩
  | revoked _ hfind hne _ =>
    right
    refine ⟨_, ?_, .trimmedAfter rfl, fun _ ↦ ⟨.revoked hne, rfl⟩⟩
    rw [AssignmentRecord.enter_id, ← key_assignment, Table.key_of_find? hfind]
    exact hfind
  | @reauthorized request r validity lease attempt fence hs hfind hcheck =>
    right
    have hid : r.id = request.assignment := Table.key_of_find? hfind
    refine ⟨r, ?_, .trimmedAfter rfl, fun _ ↦ ?_⟩
    · rw [Renews.assignments hs, ← hfind, ← hid]
      rfl
    · obtain ⟨g, hg⟩ := reauthorizationChecks_eq_ok.mp hcheck
      have hnext := reauthorized_state s₀ c.bounds r request.authority validity lease attempt
        fence (now 0)
      refine ⟨.reauthorized hg.state hnext.symm, ?_⟩
      rcases hnext with hdegraded | hdispatched
      · rw [hdegraded]
        rfl
      · rw [hdispatched]
        rfl
  | reported _ hfind _ hr =>
    right
    obtain ⟨hid, hgrown⟩ := effectStep_history hr
    refine ⟨_, ?_, hgrown, fun hstored ↦ effectStep_legal hr hstored⟩
    rw [hid, ← key_assignment, Table.key_of_find? hfind]
    exact hfind
  | superseded ha hs hne hfind =>
    right
    refine ⟨_, ?_, .trimmedAfter rfl, fun _ ↦ ⟨.superseded ?_, rfl⟩⟩
    · rw [AssignmentRecord.enter_id, ← key_assignment, Table.key_of_find? hfind]
      exact hfind
    · -- only a holder of authority is replaced
      obtain ⟨r, hr, hholds, -⟩ := ha.replacing_holds hheld hne
      rw [hs.assignments, hr] at hfind
      cases hfind
      exact (Bool.and_eq_true_iff.mp hholds).2
  | created _ _ _ =>
    refine .inl ⟨rfl, rfl, ?_⟩
    unfold newAssignment
    simp only [AssignmentRecord.trimHistory]
    split
    · exact .inr rfl
    · exact .inl rfl

/-- What a step stores is within its life cycle when everything it finds is. -/
theorem Stores.inCycle {c : FabricConfig} {now : ClockReadings} {s₀ s : FabricState} {op : Op}
    {v : RecordedAssignment} (h : Stores c now s₀ s op v) (hheld : s₀.Held)
    (hs : s.Every AssignmentRecord.InCycle) : v.record.InCycle := by
  rcases h.legal hheld with ⟨hhistory, hstate, hreason⟩ | ⟨r, hfind, hgrown, hlegal⟩
  · have hmem : ∀ t ∈ v.record.history, t ∈ v.record.opening := by
      intro t ht
      rw [hhistory] at ht
      exact (newest_suffix _ _).mem ht
    refine ⟨by rw [hstate]; rfl, fun t ht ↦ ?_, fun t ht _ ↦ ?_⟩
    · rcases List.mem_pair.mp (hmem t ht) with rfl | rfl
      · exact .authorized
      · exact .dispatched hreason
    · rcases List.mem_pair.mp (hmem t ht) with rfl | rfl
      · exact .inl rfl
      · exact .inr ⟨rfl, rfl⟩
  · have hr := hs.find? hfind
    obtain ⟨hmoves, hstored⟩ := hlegal hr.stored
    exact hr.grown hgrown hmoves hstored

/-! ## Every run -/

/-- What of an assignment stays as it was placed; its authority, its state and what is noted of
both are not part of it. -/
def AssignmentRecord.placement (r : AssignmentRecord) : AssignmentRecord :=
  { r with
    lease := 0
    attempt := 0
    fence := ⟨0, 0⟩
    authority := .empty
    binding := {}
    state := .planned
    stateReason := .ok
    updatedAt := 0
    history := []
    effects := [] }

theorem AssignmentRecord.Continues.id {r r' : AssignmentRecord} (h : r.Continues r') :
    r'.id = r.id := by
  unfold Continues at h
  rw [h]

theorem AssignmentRecord.Continues.placement {r r' : AssignmentRecord} (h : r.Continues r') :
    r'.placement = r.placement := by
  unfold Continues at h
  rw [h]
  rfl

/-- What is stored keeps the placement of what was found, or is a new assignment. -/
theorem Stores.placement {c : FabricConfig} {now : ClockReadings} {s₀ s : FabricState} {op : Op}
    {v : RecordedAssignment} (h : Stores c now s₀ s op v) :
    (∃ r, s.assignments.find? v.record.id = some r ∧ v.record.placement = r.placement) ∨
      ∃ p options auth t, ∃ i : Identity, ∃ issued,
        Authorized c now s₀ op p options auth t ∧ s₀.Issues i issued ∧
          s = issued.superseding c.bounds auth.replacing ⟨auth.scope, p.cls⟩ t ∧
          v.record =
            newAssignment c s₀ p auth options.requestId i.id i.lease i.attempt i.fence t := by
  have hfound : ∀ {id r}, s.assignments.find? id = some r → v.record.id = r.id →
      v.record.placement = r.placement →
      ∃ r, s.assignments.find? v.record.id = some r ∧ v.record.placement = r.placement := by
    intro id r hfind hid hplacement
    have hkey : r.id = id := Table.key_of_find? hfind
    refine ⟨r, ?_, hplacement⟩
    rw [hid, hkey]
    exact hfind
  cases h with
  | revalidated _ _ hfind _ hr =>
    have hcontinues := revalidated_continues hr
    exact .inl (hfound hfind hcontinues.id hcontinues.placement)
  | revoked _ hfind _ _ => exact .inl (hfound hfind rfl rfl)
  | reauthorized hissues hfind _ =>
    rw [← Renews.assignments hissues] at hfind
    exact .inl (hfound hfind rfl rfl)
  | reported _ hfind _ hr =>
    have hcontinues := (effectStep_eq_some hr).1
    exact .inl (hfound hfind hcontinues.id hcontinues.placement)
  | superseded _ _ _ hfind => exact .inl (hfound hfind rfl rfl)
  | created ha hi hs => exact .inr ⟨_, _, _, _, _, _, ha, hi, hs, rfl⟩

/-- A step of the run placed the assignment: what was authorized then is what it is now. -/
def Step.Places (c : FabricConfig) (before : List Step) (st : Step) (r : AssignmentRecord) :
    Prop :=
  ∃ p options auth t, ∃ i : Identity,
    Authorized c st.now (run c before).state st.op p options auth t ∧
      r.placement = (newAssignment c (run c before).state p auth options.requestId i.id i.lease
        i.attempt i.fence t).placement

/-- The run placed the assignment. -/
def Originates (c : FabricConfig) (steps : List Step) (r : AssignmentRecord) : Prop :=
  ∃ before st after, steps = before ++ [st] ++ after ∧ st.Places c before r

namespace Originates

variable {c : FabricConfig} {steps : List Step} {r r' : AssignmentRecord}

theorem append (h : Originates c steps r) (st : Step) : Originates c (steps ++ [st]) r := by
  obtain ⟨before, st', after, rfl, hplaces⟩ := h
  refine ⟨before, st', after ++ [st], ?_, hplaces⟩
  simp only [List.append_assoc]

theorem of_placement (h : Originates c steps r) (heq : r'.placement = r.placement) :
    Originates c steps r' := by
  obtain ⟨before, st, after, hsteps, p, options, auth, t, i, ha, hr⟩ := h
  exact ⟨before, st, after, hsteps, p, options, auth, t, i, ha, heq.trans hr⟩

/-- What a step stores it places, or it was placed before. -/
theorem stored {st : Step} {s : FabricState} {v : RecordedAssignment}
    (h : Stores c st.now (run c steps).state s st.op v)
    (hs : s.Every (Originates c (steps ++ [st]))) : Originates c (steps ++ [st]) v.record := by
  rcases h.placement with ⟨r, hfind, hplacement⟩ | ⟨p, options, auth, t, i, -, ha, -, -, hnew⟩
  · exact (hs.find? hfind).of_placement hplacement
  · refine ⟨steps, st, [], (List.append_nil _).symm, p, options, auth, t, i, ha, ?_⟩
    rw [hnew]

end Originates

/-- **Every assignment was placed** by a step of the run, in whose state its plan was authorized,
and is what was placed, whatever became of its authority: restarts bring back nothing else. -/
theorem assignments_originate (c : FabricConfig) (steps : List Step) :
    (run c steps).state.Every (Originates c steps) := by
  have hevery : (run c steps).Every c (Originates c steps) := by
    refine run_every (fun _ st _ h ↦ h.append st) ?_ ?_ steps
    · intro steps st s v _ _ hs hv
      exact .stored hv.stores hs
    · intro steps st boot r _ hr _ _
      exact hr.of_placement rfl
  exact hevery.memory

/-! ## Live assignments -/

/-- Every live assignment of a state is still there in another, as it was placed. -/
def FabricState.KeepsLive (s s' : FabricState) : Prop :=
  ∀ id r, s.assignments.find? id = some r → r.state.isLive = true →
    ∃ r', s'.assignments.find? id = some r' ∧ r'.placement = r.placement

/-- What an operation issues identifies no live assignment it found. -/
theorem FabricState.Issues.ne_live {s issued : FabricState} {i : Identity}
    (h : s.Issues i issued) (hs : s.Counts) {r : AssignmentRecord}
    (hr : s.assignments.find? r.id = some r) (hlive : r.state.isLive = true) :
    r.id ≠ i.id ∧ r.lease ≠ i.lease ∧ r.attempt ≠ i.attempt :=
  h.fresh.ne (hs r (Table.mem_values_of_find? hr) hlive)

/-- **Nothing that is issued is in use**: whatever a running runtime issues next is neither the
identifier nor the lease nor the attempt of a live assignment, restarts included. -/
theorem issued_not_in_use (c : FabricConfig) (steps : List Step)
    (hrun : (run c steps).running = true) {i : Identity} {issued : FabricState}
    (hi : (run c steps).state.Issues i issued) :
    (run c steps).state.Every fun r ↦ r.state.isLive = true →
      r.id ≠ i.id ∧ r.lease ≠ i.lease ∧ r.attempt ≠ i.attempt := by
  intro r hr hlive
  have hcounts := (runningInvariant_counts c).run steps (.inl hrun)
  exact hi.ne_live hcounts (Table.mem_values.mp hr) hlive

/-- The counters after the first placement. -/
private theorem Sample.counters_placed :
    let s := (run {} Sample.placed).state
    (run {} Sample.placed).running = true ∧ s.nextAssignmentOrdinal = 1 ∧ s.nextLease = 1 ∧
      s.nextAttempt = 1 ∧ s.nextFenceSequence = 1 := by
  decide +kernel

/-- What a state issues after the first placement. -/
private theorem exists_second (s : FabricState) (hordinal : s.nextAssignmentOrdinal = 1)
    (hlease : s.nextLease = 1) (hattempt : s.nextAttempt = 1) (hfence : s.nextFenceSequence = 1) :
    ∃ issued, s.Issues ⟨⟨ascii "as-0000000000000002", .inr (by decide)⟩, 2, 2,
      ⟨s.epoch.counter, 2⟩⟩ issued := by
  refine ⟨_, _, _, _, .assignment 2 _ ?_ rfl, .lease 2 ?_, .attempt 2 ?_, .fence 2 ?_⟩
  · rw [hordinal]
    rfl
  · rw [hlease]
    rfl
  · rw [hattempt]
    rfl
  · rw [hfence]
    rfl

/-- What is issued after the first placement is not in use. -/
theorem issued_not_in_use_placed : ∃ i : Identity, i.lease = 2 ∧
    (run {} Sample.placed).state.Every fun r ↦ r.state.isLive = true →
      r.id ≠ i.id ∧ r.lease ≠ i.lease ∧ r.attempt ≠ i.attempt := by
  obtain ⟨hrun, hordinal, hlease, hattempt, hfence⟩ := Sample.counters_placed
  obtain ⟨issued, hi⟩ := exists_second _ hordinal hlease hattempt hfence
  exact ⟨_, rfl, issued_not_in_use {} Sample.placed hrun hi⟩

/-- A change keeps what an operation found live. -/
theorem Change.keepsLive {c : FabricConfig} {st : Step} {m₀ m m' : Impl} (h : Change c st m₀ m m')
    (hcrash : st.op ≠ .crash) (hcounts : m₀.state.Counts) (hm : m₀.state.KeepsLive m.state) :
    m₀.state.KeepsLive m'.state := by
  rcases h.assignments hcrash with hsame | ⟨v, -, -, -, hv, -, -, hinsert⟩
  · intro id r hr hlive
    rw [hsame]
    exact hm id r hr hlive
  · intro id r hr hlive
    obtain ⟨r₁, hr₁, hplacement⟩ := hm id r hr hlive
    rw [hinsert, Table.find?_insert, key_assignment]
    by_cases hid : v.record.id = id
    · rw [if_pos hid]
      refine ⟨v.record, rfl, ?_⟩
      rcases hv.placement with ⟨r₂, hr₂, heq⟩ | ⟨p, options, auth, t, i, issued, -, hi, -, hnew⟩
      · rw [hid, hr₁] at hr₂
        cases hr₂
        exact heq.trans hplacement
      · -- a new assignment has an identifier that no live one has
        have hkey : r.id = id := Table.key_of_find? hr
        have hne := (hi.ne_live hcounts (hkey ▸ hr) hlive).1
        rw [hnew] at hid
        exact absurd (hkey.trans hid.symm) hne
    · rw [if_neg hid]
      exact ⟨r₁, hr₁, hplacement⟩

/-- **A live assignment is never lost or overwritten** by an operation: whatever the operation
does, also when it fails midway, the assignment is still there as it was placed. -/
theorem live_assignments_kept (c : FabricConfig) (steps : List Step) (st : Step)
    (hstart : ∀ boot, st.op ≠ .start boot) (hcrash : st.op ≠ .crash) :
    (run c steps).state.KeepsLive (run c (steps ++ [st])).state := by
  rw [run_append]
  cases hrun : (run c steps).running with
  | false =>
    rcases st.next_idle c _ hstart hrun with ⟨b, heq⟩ | ⟨hop, -⟩
    · rw [heq]
      exact fun id r hr _ ↦ ⟨r, hr, rfl⟩
    · exact absurd hop hcrash
  | true =>
    have hcounts := (runningInvariant_counts c).run steps (.inl hrun)
    exact st.active (P := fun m ↦ (run c steps).state.KeepsLive m.state) hstart hcrash
      (fun id r hr _ ↦ ⟨r, hr, rfl⟩) fun m₁ m₂ hc _ hm ↦ hc.keepsLive hcrash hcounts hm

/-- A report keeps the first placement. -/
theorem live_assignments_kept_applied :
    (run {} Sample.placed).state.KeepsLive
      (run {} (Sample.placed ++ [Sample.step (.reportEffect Sample.report)])).state :=
  live_assignments_kept {} Sample.placed (Sample.step (.reportEffect Sample.report))
    (by rintro _ ⟨⟩) (by rintro ⟨⟩)

end OffloadFabric
