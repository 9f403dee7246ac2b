import OffloadFabric.Fabric.EveryRecord
import OffloadFabric.Fabric.Decisions

/-!
# Transitions of assignments

What each way of storing an assignment makes of it. A record holds authority after a step that
stores it only when it is new, re-authorized or reported on.
-/

namespace OffloadFabric

open Lib Lib.Fallible FabricState Wire

namespace FabricState

/-- Revalidation suspends an invalid assignment and degrades one whose target is degraded. -/
theorem revalidated_eq_some {s : FabricState} {b : Bounds} {r r' : AssignmentRecord}
    {now : Micros} (h : s.revalidated b r now = some r') :
    r.state.isLive = true ∧ s.assignmentValidity r now ≠ .ok ∧
      (s.assignmentValidity r now = .livenessDegraded ∧ r.state ≠ .degraded ∧
          r' = r.enter b .degraded .livenessDegraded now ∨
        s.assignmentValidity r now ≠ .livenessDegraded ∧
          r' = r.enter b .suspended (s.assignmentValidity r now) now) := by
  unfold revalidated at h
  simp only at h
  split at h
  · cases h
  · next hlive =>
      rw [AssignmentState.isTerminal_eq_not_isLive, Bool.not_eq_true', Bool.not_eq_false] at hlive
      split at h
      · cases h
      · next hok =>
          refine ⟨hlive, hok, ?_⟩
          split at h
          · next hdegraded =>
              split at h
              · cases h
              · next hstate =>
                  cases h
                  exact .inl ⟨hdegraded, hstate, by rw [hdegraded]⟩
          · next hdegraded =>
              cases h
              exact .inr ⟨hdegraded, rfl⟩

theorem revalidated_continues {s : FabricState} {b : Bounds} {r r' : AssignmentRecord}
    {now : Micros} (h : s.revalidated b r now = some r') : r.Continues r' := by
  obtain ⟨-, -, ⟨-, -, rfl⟩ | ⟨-, rfl⟩⟩ := revalidated_eq_some h <;> rfl

theorem reauthorized_state (s : FabricState) (b : Bounds) (r : AssignmentRecord)
    (authority : AuthorityId) (validity : ReasonCode) (lease : LeaseId) (attempt : AttemptId)
    (fence : FencingToken) (now : Micros) :
    (s.reauthorized b r authority validity lease attempt fence now).state = .degraded ∨
      (s.reauthorized b r authority validity lease attempt fence now).state = .dispatched := by
  unfold reauthorized
  simp only [AssignmentRecord.enter_state]
  split
  · exact .inl rfl
  · exact .inr rfl

end FabricState

/-- The state an accepted report leaves its assignment in, and the states it is accepted in. -/
inductive Outcome : EffectOutcome → AssignmentState → AssignmentState → Prop
  | applied {s : AssignmentState}
      (h : s = .dispatched ∨ s = .acknowledged ∨ s = .degraded) :
      Outcome .applied s .appliedVerified
  | rejected {s : AssignmentState} (h : s.isLive = true) : Outcome .rejected s .rejected
  | failed {s : AssignmentState} (h : s.isLive = true) : Outcome .failed s .failed
  | unknown {s : AssignmentState} (h : s.isLive = true) : Outcome .unknown s s

/-- An accepted report moves the state of its assignment by its outcome. -/
theorem effectStep_eq_some {b : Bounds} {e : EffectReport} {r r' : AssignmentRecord}
    {now : Micros} (h : effectStep b e r now = .ok (some r')) :
    r.Continues r' ∧ Outcome e.outcome r.state r'.state := by
  unfold effectStep at h
  split at h
  · cases h
  · obtain ⟨_, hlive, h⟩ := bind_eq_ok.mp h
    have hlive := require_eq_ok.mp hlive
    rw [AssignmentState.isTerminal_eq_not_isLive, Bool.not_eq_false'] at hlive
    split at h
    · cases h
    · obtain ⟨_, happlied, h⟩ := bind_eq_ok.mp h
      have happlied := require_eq_ok.mp happlied
      cases h
      unfold AssignmentRecord.applyOutcome
      cases ho : e.outcome with
      | applied => exact ⟨rfl, .applied (happlied ho)⟩
      | rejected => exact ⟨rfl, .rejected hlive⟩
      | failed => exact ⟨rfl, .failed hlive⟩
      | unknown => exact ⟨rfl, .unknown hlive⟩

/-- What the fencing checks of a report compare. -/
structure Fits (s : FabricState) (e : EffectReport) (r : AssignmentRecord) : Prop where
  isSet : e.fence.isSet
  fence : e.fence = r.fence
  epoch : e.fence.epoch = s.epoch.counter
  attempt : e.attempt = r.attempt
  generation : e.generation = r.generation
  incarnation : e.incarnation = r.incarnation
  capability : e.capabilityGeneration = r.binding.capability

theorem fencingChecks_eq_ok {s : FabricState} {e : EffectReport} {r : AssignmentRecord}
    (h : fencingChecks s e r = .ok ()) : Fits s e r := by
  obtain ⟨_, hfence, h⟩ := bind_eq_ok.mp h
  obtain ⟨_, hepoch, h⟩ := bind_eq_ok.mp h
  obtain ⟨_, hattempt, h⟩ := bind_eq_ok.mp h
  obtain ⟨_, hgeneration, h⟩ := bind_eq_ok.mp h
  obtain ⟨_, hincarnation, hcapability⟩ := bind_eq_ok.mp h
  exact ⟨(require_eq_ok.mp hfence).1, (require_eq_ok.mp hfence).2, require_eq_ok.mp hepoch,
    require_eq_ok.mp hattempt, require_eq_ok.mp hgeneration, require_eq_ok.mp hincarnation,
    require_eq_ok.mp hcapability⟩

/-! ## New holders -/

/-- A step leaves a holder of authority that it did not find. -/
structure Step.Creates (c : FabricConfig) (m : Impl) (st : Step) (r : AssignmentRecord) :
    Prop where
  stored : (st.next c m).state.assignments.find? r.id = some r
  fresh : m.state.assignments.find? r.id ≠ some r
  holds : r.state.holdsAuthority = true

/-- An assignment that a step leaves and did not find, it stored. -/
theorem Step.stores_of_new {c : FabricConfig} {m : Impl} {st : Step} {r : AssignmentRecord}
    (hstart : ∀ boot, st.op ≠ .start boot) (hcrash : st.op ≠ .crash)
    (hfind : (st.next c m).state.assignments.find? r.id = some r)
    (hnew : m.state.assignments.find? r.id ≠ some r) :
    m.running = true ∧ ∃ s v, Stores c st.now m.state s st.op v ∧ v.record = r := by
  cases hrun : m.running with
  | false =>
      rcases st.next_idle c m hstart hrun with ⟨b, heq⟩ | ⟨hop, -⟩
      · rw [heq] at hfind
        exact absurd hfind hnew
      · exact absurd hop hcrash
  | true =>
      have hall : ∀ r', (st.next c m).state.assignments.find? r'.id = some r' →
          m.state.assignments.find? r'.id = some r' ∨
            ∃ s v, Stores c st.now m.state s st.op v ∧ v.record = r' := by
        refine st.active (P := fun m' ↦ ∀ r', m'.state.assignments.find? r'.id = some r' →
          m.state.assignments.find? r'.id = some r' ∨
            ∃ s v, Stores c st.now m.state s st.op v ∧ v.record = r') hstart hcrash
          (fun r' hr' ↦ .inl hr') fun m₁ m₂ hc _ ih r' hr' ↦ ?_
        rcases hc.assignments hcrash with hsame | ⟨v, _, _, -, hv, -, -, hinsert⟩
        · rw [hsame] at hr'
          exact ih r' hr'
        · rw [hinsert, Table.find?_insert, key_assignment] at hr'
          split at hr'
          · exact .inr ⟨_, v, hv, Option.some.inj hr'⟩
          · exact ih r' hr'
      exact ⟨rfl, (hall r hfind).resolve_left hnew⟩

/-- What is stored holds authority when it is new, re-authorized or reported on. -/
inductive Entered (c : FabricConfig) (now : ClockReadings) (s : FabricState) :
    Op → AssignmentRecord → Prop
  | created {op : Op} {p : AssignmentPlan} {options : ApplyOptions} {auth : Authorization}
      {t : Micros} {i : FabricState.Identity} {issued : FabricState}
      (ha : Authorized c now s op p options auth t) (hi : s.Issues i issued) :
      Entered c now s op
        (newAssignment c s p auth options.requestId i.id i.lease i.attempt i.fence t)
  | reauthorized {request : ReauthorizeRequest} {r : AssignmentRecord}
      {lease : LeaseId} {attempt : AttemptId} {fence : FencingToken} {issued : FabricState}
      (hi : s.Renews lease attempt fence issued)
      (hfind : s.assignments.find? request.assignment = some r)
      (hcheck : s.reauthorizationChecks request r (now 0) = .ok .ok) :
      Entered c now s (.reauthorize request)
        (s.reauthorized c.bounds r request.authority .ok lease attempt fence (now 0))
  | reported {report : EffectReport} {r r' : AssignmentRecord}
      (hfind : s.assignments.find? report.assignment = some r)
      (hfence : fencingChecks s report r = .ok ())
      (hr : effectStep c.bounds report r (now 0) = .ok (some r')) :
      Entered c now s (.reportEffect report) r'

theorem Stores.entered {c : FabricConfig} {now : ClockReadings} {s₀ s : FabricState} {op : Op}
    {v : RecordedAssignment} (h : Stores c now s₀ s op v)
    (hholds : v.record.state.holdsAuthority = true) : Entered c now s₀ op v.record := by
  cases h with
  | revalidated _ _ _ _ hr =>
      obtain ⟨-, -, ⟨-, -, rfl⟩ | ⟨-, rfl⟩⟩ := revalidated_eq_some hr <;> cases hholds
  | revoked _ _ _ _ => cases hholds
  | @reauthorized request r validity lease attempt fence hs hfind hcheck =>
      -- a degraded target leaves the assignment degraded, without authority
      by_cases hdegraded : validity = .livenessDegraded
      · subst hdegraded
        cases hholds
      · have hok : validity = .ok := by
          obtain ⟨g, hg⟩ := reauthorizationChecks_eq_ok.mp hcheck
          exact hg.usable.resolve_right hdegraded
        subst hok
        exact .reauthorized hs hfind hcheck
  | reported hs hfind hfence hr =>
      subst hs
      exact .reported hfind hfence hr
  | superseded _ _ _ _ => cases hholds
  | created ha hi _ => exact .created ha hi

/-- A step that leaves a new holder entered it. -/
theorem Step.Creates.entered {c : FabricConfig} {m : Impl} {st : Step} {r : AssignmentRecord}
    (h : st.Creates c m r) (hstart : ∀ boot, st.op ≠ .start boot) (hcrash : st.op ≠ .crash) :
    m.running = true ∧ Entered c st.now m.state st.op r := by
  obtain ⟨hrun, s, v, hv, rfl⟩ := Step.stores_of_new hstart hcrash h.stored h.fresh
  exact ⟨hrun, hv.entered h.holds⟩

/-- The request an operation plans and then authorizes. -/
def Op.placed (s : FabricState) : Op → Option PlacementRequest
  | .apply request _ => some request
  | .replace request =>
      (s.assignments.find? request.current).map (Fabric.replacementPlacement request)
  | _ => none

/-- What a placement asks to authorize is an accepted plan of its request. -/
theorem Op.placed_authorization {c : FabricConfig} {now : ClockReadings} {s : FabricState} {op : Op}
    {request : PlacementRequest} {p : AssignmentPlan} {options : ApplyOptions} {t : Micros}
    (hop : op.placed s = some request) (h : op.authorization c now s = some (p, options, t)) :
    t = now 2 ∧ ∃ cancelled planned,
      s.planLocked c.bounds request cancelled (now 1) = .ok planned ∧
        planned.decision ≠ .refuse ∧ p = planned.plan := by
  have hplacement : ∀ options', Op.placement c now s request options' = some (p, options, t) →
      t = now 2 ∧ ∃ cancelled planned,
        s.planLocked c.bounds request cancelled (now 1) = .ok planned ∧
          planned.decision ≠ .refuse ∧ p = planned.plan := by
    intro options' h
    unfold Op.placement at h
    split at h
    · next planned hplanned =>
        split at h
        · cases h
        · next hd =>
            cases h
            exact ⟨rfl, _, planned, hplanned, hd, rfl⟩
    · cases h
  cases op with
  | apply request' options' =>
      cases hop
      exact hplacement _ h
  | replace request' =>
      cases hcurrent : s.assignments.find? request'.current with
      | none =>
          simp only [Op.authorization, hcurrent] at h
          cases h
      | some current =>
          simp only [Op.authorization, hcurrent] at h
          simp only [Op.placed, hcurrent, Option.map_some, Option.some.injEq] at hop
          subst hop
          exact hplacement _ h
  | _ => cases hop

/-- The operations that place an assignment. -/
def Op.places : Op → Bool
  | .apply _ _ | .applyPlan _ _ | .replace _ => true
  | _ => false

theorem Op.places_of_placed {s : FabricState} {op : Op} {request : PlacementRequest}
    (h : op.placed s = some request) : op.places = true := by
  cases op with
  | apply _ _ => rfl
  | replace _ => rfl
  | _ => cases h

/-- A placement enters nothing but what it creates. -/
theorem Step.Creates.authorized {c : FabricConfig} {m : Impl} {st : Step}
    {r : AssignmentRecord} (h : st.Creates c m r) (hop : st.op.places = true) :
    ∃ p options auth t, ∃ i : Identity, Authorized c st.now m.state st.op p options auth t ∧
      r = newAssignment c m.state p auth options.requestId i.id i.lease i.attempt i.fence t := by
  have hstart : ∀ boot, st.op ≠ .start boot := by
    intro boot heq
    rw [heq] at hop
    cases hop
  have hcrash : st.op ≠ .crash := by
    intro heq
    rw [heq] at hop
    cases hop
  obtain ⟨-, hentered⟩ := h.entered hstart hcrash
  generalize st.op = op at hop hentered
  cases hentered with
  | created ha hi => exact ⟨_, _, _, _, _, ha, rfl⟩
  | reauthorized _ _ _ => cases hop
  | reported _ _ _ => cases hop

/-! ## Reports -/

namespace Fabric

/-- A report stores the record of an accepted outcome and answers with it, or stores none. -/
theorem reportEffect_exec (c : FabricConfig) (report : EffectReport) (now : ClockReadings)
    (m : Impl) :
    ((reportEffect c report now).exec m).2.state.assignments = m.state.assignments ∨
      ∃ r r', m.state.assignments.find? report.assignment = some r ∧
        fencingChecks m.state report r = .ok () ∧
        effectStep c.bounds report r (now 0) = .ok (some r') ∧
        ((reportEffect c report now).exec m).1 = .ok r' ∧
        ((reportEffect c report now).exec m).2.state.assignments =
          m.state.assignments.insert r' := by
  unfold reportEffect
  rcases exec_checkAccepting_bind (fun _ ↦ _) m with ⟨-, -, heq⟩ | ⟨e, heq⟩
  · rw [heq, exec_bind, FabricM.exec_getState]
    simp only
    split
    · exact .inl (by rw [exec_liftExcept])
    · rw [exec_bind]
      cases hr : m.state.assignments.find? report.assignment with
      | none => exact .inl rfl
      | some r =>
          rw [exec_found_some]
          simp only
          rw [exec_bind, exec_liftExcept]
          cases hfence : fencingChecks m.state report r with
          | error e => exact .inl rfl
          | ok u =>
              simp only
              rw [exec_bind, exec_liftExcept]
              cases ho : effectStep c.bounds report r (now 0) with
              | error e => exact .inl rfl
              | ok o =>
                  cases o with
                  | none => exact .inl rfl
                  | some r' =>
                      simp only
                      have hstore := storeEffect_exec c r' report report.requestId
                        (report.fingerprint c.bounds) (now 1) m
                      rw [exec_bind]
                      generalize (storeEffect c r' report report.requestId
                        (report.fingerprint c.bounds) (now 1)).exec m = out at hstore ⊢
                      cases hstore with
                      | failed _ => exact .inl rfl
                      | stored _ _ _ =>
                          exact .inr ⟨r, r', rfl, hfence, ho, rfl, storing_assignments _ _ _ _ _⟩
  · rw [heq]
    exact .inl rfl

end Fabric

end OffloadFabric
