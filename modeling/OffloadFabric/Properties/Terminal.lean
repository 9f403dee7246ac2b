import OffloadFabric.Fabric.Claims
import OffloadFabric.Fabric.Mirror
import OffloadFabric.Fabric.Transitions

/-!
# Terminal assignments

Which operations write over an assignment that is revoked, superseded, rejected or failed:
`src/assignment.cpp:107-144` names these states, `src/fabric.cpp:3778-3826,4060-4070` guards them.
-/

namespace OffloadFabric

open Lib Lib.Fallible FabricState

/-- The two ways over a terminal assignment: a new revocation of one that was not revoked but
superseded, rejected or failed, and a placement that is issued its identifier again. -/
inductive Step.Overwrites (c : FabricConfig) (m : Impl) (st : Step) (r : AssignmentRecord) : Prop
  | revokes {request : RevokeRequest} (hop : st.op = .revoke request)
      (haccepts : m.recoveryAccepted = true) (hmiss : st.op.Missed c m.state)
      (hid : request.assignment = r.id) (hstate : r.state ≠ .revoked)
      (hcancel : request.cancel 0 = false)
  | reissues {p : AssignmentPlan} {options : ApplyOptions} {auth : Authorization} {t : Micros}
      {issued : FabricState} (haccepts : m.recoveryAccepted = true) (hmiss : st.op.Missed c m.state)
      (ha : Authorized c st.now m.state st.op p options auth t)
      (hid : m.state.issueAssignmentId = .ok (r.id, issued))

/-! ## One step -/

variable {c : FabricConfig} {m : Impl} {st : Step} {r : AssignmentRecord}

private theorem effectStep_not_terminal {b : Bounds} {e : EffectReport}
    {r r' : AssignmentRecord} {now : Micros} (h : effectStep b e r now = .ok (some r')) :
    r.state.isTerminal = false := by
  unfold effectStep at h
  split at h
  · cases h
  · obtain ⟨_, hlive, -⟩ := bind_eq_ok.mp h
    exact require_eq_ok.mp hlive

private theorem Authorized.lookup_ne_none {now : ClockReadings} {s : FabricState} {op : Op}
    {p : AssignmentPlan} {options : ApplyOptions} {auth : Authorization} {t : Micros}
    (h : Authorized c now s op p options auth t) : op.lookup c s ≠ none := by
  have hasked := h.asked
  cases op with
  | apply _ _ | applyPlan _ _ => exact Option.some_ne_none _
  | replace request =>
      cases hcurrent : s.assignments.find? request.current with
      | none =>
          simp only [Op.authorization, hcurrent] at hasked
          cases hasked
      | some current =>
          simp only [Op.lookup, hcurrent]
          exact Option.some_ne_none _
  | _ => cases hasked

/-- What a step stores is not in the place of a terminal assignment that it does not write
over. -/
private theorem Stores.id_ne {s : FabricState} {v : RecordedAssignment} (hheld : m.state.Held)
    (hterminal : r.state.isTerminal = true) (hsafe : ¬ st.Overwrites c m r)
    (haccepts : st.op.lookup c m.state ≠ none → m.recoveryAccepted = true)
    (hcancel : ∀ request, st.op = .revoke request → request.cancel 0 = false)
    (hmiss : st.op.Missed c m.state) (h : Stores c st.now m.state s st.op v)
    (hfind₀ : m.state.assignments.find? r.id = some r)
    (hfind : s.assignments.find? r.id = some r) : v.record.id ≠ r.id := by
  intro hid
  -- an assignment stored in the place of `r` comes from `r`, or is new
  have hfrom : ∀ {t : Table AssignmentRecord} {id : AssignmentId} {x : AssignmentRecord},
      t.find? r.id = some r → t.find? id = some x → v.record.id = x.id → x = r := by
    intro t id x hr hx hxid
    have hkey : x.id = id := Table.key_of_find? hx
    rw [← hkey, ← hxid, hid, hr] at hx
    exact (Option.some.inj hx).symm
  generalize hop : st.op = op at h
  cases h with
  | @revalidated _ base t x x' hreval hvalid hx hbase hr =>
      obtain ⟨hlive, -, hx'⟩ := revalidated_eq_some hr
      have hxid : x'.id = x.id := by
        obtain ⟨-, -, rfl⟩ | ⟨-, rfl⟩ := hx' <;> rfl
      obtain rfl := hfrom hfind hx hxid
      rw [AssignmentState.isTerminal_eq_not_isLive, hlive] at hterminal
      cases hterminal
  | @revoked request x hs hx hne hcheck =>
      obtain rfl := hfrom hfind hx rfl
      have hkey : x.id = request.assignment := Table.key_of_find? hx
      have hlookup : st.op.lookup c m.state ≠ none := by
        rw [hop]
        exact Option.some_ne_none _
      exact hsafe (.revokes hop (haccepts hlookup) hmiss hkey.symm hne (hcancel request hop))
  | @reauthorized request x validity lease attempt fence hs hx hcheck =>
      obtain ⟨g, hg⟩ := reauthorizationChecks_eq_ok.mp hcheck
      obtain rfl := hfrom hfind₀ hx rfl
      rcases hg.state with hstate | hstate
      · rw [hstate] at hterminal
        cases hterminal
      · rw [hstate] at hterminal
        cases hterminal
  | @reported report x x' hs hx hfence hr =>
      obtain ⟨hcontinues, -⟩ := effectStep_eq_some hr
      obtain rfl := hfrom hfind hx (by rw [hcontinues])
      exact absurd (hterminal.symm.trans (effectStep_not_terminal hr)) (by decide)
  | @superseded _ p options auth t i previous ha hs hne hx =>
      obtain ⟨x, hx₀, hexclusive, -⟩ := ha.replacing_holds hheld hne
      rw [hs.assignments] at hx
      obtain rfl : x = previous := Option.some.inj (hx₀.symm.trans hx)
      obtain rfl := hfrom hfind₀ hx rfl
      have hholds : x.state.holdsAuthority = true := by
        unfold AssignmentRecord.holdsExclusive at hexclusive
        exact (Bool.and_eq_true_iff.mp hexclusive).2
      revert hterminal hholds
      cases x.state <;> decide
  | @created _ p options auth t i issued ha hi hs =>
      obtain ⟨s', hissue⟩ := hi.issueAssignmentId
      have hir : i.id = r.id := hid
      rw [hir] at hissue
      rw [← hop] at ha
      exact hsafe (.reissues (haccepts ha.lookup_ne_none) hmiss ha hissue)

/-- A revocation that is cancelled when it starts changes nothing. -/
theorem Fabric.revoke_cancelled (c : FabricConfig) (request : RevokeRequest)
    (now : ClockReadings) (m : Impl) (h : request.cancel 0 = true) :
    ((Fabric.revoke c request now).exec m).2 = m := by
  unfold Fabric.revoke
  rcases Fabric.exec_checkAccepting_bind (fun _ ↦ _) m with ⟨-, -, heq⟩ | ⟨e, heq⟩
  · rw [heq, exec_bind, FabricM.exec_getState]
    simp only
    split
    · rw [exec_liftExcept]
    · rw [exec_bind]
      cases m.state.assignments.find? request.assignment with
      | none => rfl
      | some r =>
          rw [exec_found_some]
          simp only
          split
          · rfl
          · simp only [exec_bind, exec_check, h, Bool.true_eq_false, if_false]
  · rw [heq]

private theorem accepting_same {α : Type} (hacc : m.recoveryAccepted = false)
    (f : Unit → FabricM α) : ((Fabric.checkAccepting >>= f).exec m).2 = m := by
  rcases Fabric.exec_checkAccepting_bind f m with ⟨-, hacc', -⟩ | ⟨e, heq⟩
  · rw [hacc] at hacc'
    cases hacc'
  · rw [heq]

/-- Before the recovery is accepted no request changes anything. -/
theorem Step.next_unaccepted (st : Step) (hlookup : st.op.lookup c m.state ≠ none)
    (hacc : m.recoveryAccepted = false) : st.next c m = m.facing st.faults := by
  have hacc : (m.facing st.faults).recoveryAccepted = false := hacc
  unfold Step.next Step.exec
  generalize st.op = op at hlookup
  cases op with
  | apply request options => exact Fabric.map_idle (accepting_same hacc _)
  | applyPlan planned options => exact Fabric.map_idle (accepting_same hacc _)
  | replace request => exact Fabric.map_idle (accepting_same hacc _)
  | revoke request => exact Fabric.map_idle (accepting_same hacc _)
  | reauthorize request => exact Fabric.map_idle (accepting_same hacc _)
  | reportEffect report => exact Fabric.map_idle (accepting_same hacc _)
  | _ => exact absurd rfl hlookup

/-- A step that writes over no terminal assignment changes nothing, or its requests were
accepted and not cancelled. -/
private theorem Step.next_cases (c : FabricConfig) (m : Impl) (st : Step) :
    st.next c m = m.facing st.faults ∨
      (st.op.lookup c m.state ≠ none → m.recoveryAccepted = true) ∧
        ∀ request, st.op = .revoke request → request.cancel 0 = false := by
  by_cases haccepts : st.op.lookup c m.state ≠ none → m.recoveryAccepted = true
  · by_cases hcancel : ∀ request, st.op = .revoke request → request.cancel 0 = false
    · exact .inr ⟨haccepts, hcancel⟩
    · obtain ⟨request, hcancel⟩ := not_forall.mp hcancel
      obtain ⟨hop, hcancel⟩ := Classical.not_imp.mp hcancel
      left
      unfold Step.next Step.exec
      rw [hop]
      exact Fabric.map_idle (Fabric.revoke_cancelled c request st.now _
        (Bool.eq_true_of_not_eq_false hcancel))
  · obtain ⟨hlookup, hacc⟩ := Classical.not_imp.mp haccepts
    exact .inl (st.next_unaccepted hlookup (Bool.eq_false_of_not_eq_true hacc))

/-- What a step stores leaves a terminal assignment that it does not write over. -/
private theorem Stores.leaves {s : FabricState} {v : RecordedAssignment} (hheld : m.state.Held)
    (hterminal : r.state.isTerminal = true) (hsafe : ¬ st.Overwrites c m r)
    (haccepts : st.op.lookup c m.state ≠ none → m.recoveryAccepted = true)
    (hcancel : ∀ request, st.op = .revoke request → request.cancel 0 = false)
    (hmiss : st.op.Missed c m.state) (h : Stores c st.now m.state s st.op v)
    (hfind₀ : m.state.assignments.find? r.id = some r)
    (hfind : s.assignments.find? r.id = some r) :
    (s.assignments.insert v.record).find? r.id = some r := by
  have hne := Stores.id_ne hheld hterminal hsafe haccepts hcancel hmiss h hfind₀ hfind
  rw [Table.find?_insert_of_ne hne]
  exact hfind

/-! ## Runs -/

/-- The assignment is stored under its identifier. -/
def AssignmentRecord.StoredIn (r : AssignmentRecord) (s : FabricState) : Prop :=
  s.assignments.find? r.id = some r

theorem AssignmentRecord.durableProperty_storedIn (r : AssignmentRecord) :
    DurableProperty r.StoredIn := by
  intro s t hst hs
  exact (hst (.assignment r.id)).trans hs

/-- A step that does not write over a terminal assignment keeps it, in memory and in every
recovery of the log. -/
theorem Impl.Keeps.terminal {steps : List Step} (hstore : c.hasStore = true)
    (hterminal : r.state.isTerminal = true) (h : (run c steps).Keeps c r.StoredIn)
    (hsafe : ¬ st.Overwrites c (run c steps) r) :
    (st.next c (run c steps)).Keeps c r.StoredIn := by
  rcases st.next_cases c (run c steps) with hsame | ⟨haccepts, hcancel⟩
  · rw [hsame]
    exact ⟨fun f hf ↦ h.recalled f (hf.same ((run c steps).facing_same st.faults)), h.held⟩
  · refine h.next hstore (Impl.Durable.run hstore steps) r.durableProperty_storedIn st ?_ ?_ ?_
    · intro _ d hd hs
      unfold AssignmentRecord.StoredIn
      rw [Op.delivery_next hd]
      exact hs
    · intro hrun s v hmiss hv hs
      exact Stores.leaves (run_held c steps (.inl hrun)) hterminal hsafe haccepts hcancel hmiss hv
        (h.held hrun) hs
    · intro boot _ s x hx hlive _ hs
      have hne : x.id ≠ r.id := by
        intro hid
        rw [hid, hs] at hx
        obtain rfl := Option.some.inj hx
        rw [AssignmentState.isTerminal_eq_not_isLive, hlive] at hterminal
        cases hterminal
      unfold AssignmentRecord.StoredIn
      rw [Table.find?_insert_of_ne hne]
      exact hs

/-- Without a store, a step that is no crash and does not write over a terminal assignment keeps
it. -/
private theorem Step.keeps_terminal {steps : List Step} (hstore : c.hasStore = false)
    (hcrash : st.op ≠ .crash) (hterminal : r.state.isTerminal = true)
    (h : r.StoredIn (run c steps).state) (hsafe : ¬ st.Overwrites c (run c steps) r) :
    r.StoredIn (st.next c (run c steps)).state := by
  rcases st.next_cases c (run c steps) with hsame | ⟨haccepts, hcancel⟩
  · rw [hsame]
    exact h
  by_cases hstart : ∃ boot, st.op = .start boot
  · obtain ⟨boot, hop⟩ := hstart
    have hnext := st.start_next c (run c steps) hop
    have hbare : ∀ {p : Prop}, c.hasStore = true → p := fun htrue ↦
      absurd (htrue.symm.trans hstore) (by decide)
    generalize st.next c (run c steps) = m' at hnext
    cases hnext with
    | refused _ => exact h
    | bare _ _ => exact h
    | unreadable hstore _ _ _ => exact hbare hstore
    | exhausted hstore _ _ _ => exact hbare hstore
    | unrecorded hstore _ _ _ _ _ => exact hbare hstore
    | suspending hstore _ _ => exact hbare hstore
    | launched hstore _ _ _ => exact hbare hstore
  · have hstart : ∀ boot, st.op ≠ .start boot := fun boot hop ↦ hstart ⟨boot, hop⟩
    refine st.active (P := fun m' ↦ r.StoredIn m'.state) hstart hcrash h fun m₁ m₂ hc _ hs ↦ ?_
    unfold AssignmentRecord.StoredIn
    rcases hc.assignments hcrash with hsame | ⟨v, _, _, hmiss, hv, -, -, hinsert⟩
    · rw [hsame]
      exact hs
    · rw [hinsert]
      exact Stores.leaves (run_held c steps (.inr hstore)) hterminal hsafe haccepts hcancel hmiss
        hv h hs

/-- No step of a run writes over the assignment. -/
def Leaves (c : FabricConfig) (r : AssignmentRecord) (steps later : List Step) : Prop :=
  ∀ before st, before ++ [st] <+: later → ¬ st.Overwrites c (run c (steps ++ before)) r

private theorem Leaves.of_append {steps later : List Step} {st : Step}
    (h : Leaves c r steps (later ++ [st])) : Leaves c r steps later :=
  fun before st' hbefore ↦ h before st' (hbefore.trans (List.prefix_append _ _))

private theorem run_append_steps (c : FabricConfig) (steps later : List Step) :
    run c (steps ++ later) = runFrom c (run c steps) later := List.foldl_append

namespace Sample

/-- A run whose placement was rejected by its device. -/
def rejected : List Step := placed ++ [step (.reportEffect { report with outcome := .rejected })]

/-- A crash and a restart. -/
def restart : List Step := [step .crash, step (.start boot)]

/-- A revocation of the first assignment. -/
def revokeFirst : List Step := [step (.revoke { assignment := first })]

private theorem rejects :
    let m := run {} rejected
    (m.state.assignments.find? first).map (·.state) = some .rejected ∧ m.running = true ∧
      (runFrom {} m restart).running = true ∧
      ((runFrom {} m revokeFirst).state.assignments.find? first).map (·.state) =
        some .revoked := by decide +kernel

end Sample

end OffloadFabric
