import OffloadFabric.Fabric.Transitions

/-!
# Exclusive claims

The claim indexes name holders only: what `src/fabric.cpp:1628-1700` acquires and releases, and
what `src/fabric.cpp:922-989` rebuilds, never leaves a claim to an assignment that does not hold
it. An authorization that replaces a holder therefore finds one that holds authority.
-/

namespace OffloadFabric

open Lib Lib.Fallible

/-- The assignment claims a class on a scope for itself, `src/fabric.cpp:1633-1640`. -/
def AssignmentRecord.ClaimsClass (r : AssignmentRecord) (k : ExclusivityKey) : Prop :=
  r.holdsExclusive = true ∧ r.exclusiveKey = .perClass ∧ r.exclusivityKey = k

/-- The assignment claims a whole scope for itself, `src/fabric.cpp:1633-1640`. -/
def AssignmentRecord.ClaimsScope (r : AssignmentRecord) (scope : ScopeId) : Prop :=
  r.holdsExclusive = true ∧ r.exclusiveKey = .perScope ∧ r.scopeId = scope

namespace FabricState

/-- Every claim of the indexes is held by an assignment of the table. -/
structure ClaimedIn (t : Table AssignmentRecord) (s : FabricState) : Prop where
  byClass : ∀ k id, s.exclusiveByClass[k]? = some id →
    ∃ r, t.find? id = some r ∧ r.ClaimsClass k
  byScope : ∀ scope id, s.exclusiveByScope[scope]? = some id →
    ∃ r, t.find? id = some r ∧ r.ClaimsScope scope

/-- Every claim of a state is held by one of its assignments. -/
def Held (s : FabricState) : Prop := s.ClaimedIn s.assignments

namespace ClaimedIn

variable {t t' : Table AssignmentRecord} {s s' : FabricState}

theorem empty (t : Table AssignmentRecord) (hclass : s.exclusiveByClass = ∅)
    (hscope : s.exclusiveByScope = ∅) : s.ClaimedIn t := by
  constructor
  · intro k id h
    rw [hclass, Std.ExtTreeMap.getElem?_empty] at h
    cases h
  · intro scope id h
    rw [hscope, Std.ExtTreeMap.getElem?_empty] at h
    cases h

theorem of_eq (h : s.ClaimedIn t) (hclass : s'.exclusiveByClass = s.exclusiveByClass)
    (hscope : s'.exclusiveByScope = s.exclusiveByScope) : s'.ClaimedIn t :=
  ⟨fun k id hk ↦ h.byClass k id (hclass ▸ hk), fun k id hk ↦ h.byScope k id (hscope ▸ hk)⟩

/-- What an assignment of the table acquires, it holds. -/
theorem acquireClaims {r : AssignmentRecord} (h : s.ClaimedIn t) (hr : t.find? r.id = some r) :
    (s.acquireClaims r).ClaimedIn t := by
  constructor
  · intro k id hk
    unfold FabricState.acquireClaims at hk
    simp only at hk
    split at hk
    · next hclaims =>
        rw [Std.ExtTreeMap.getElem?_insert] at hk
        simp only [Std.LawfulEqCmp.compare_eq_iff_eq] at hk
        split at hk
        · next heq =>
            cases hk
            exact ⟨r, hr, hclaims.1, hclaims.2, heq⟩
        · exact h.byClass k id hk
    · exact h.byClass k id hk
  · intro scope id hk
    unfold FabricState.acquireClaims at hk
    simp only at hk
    split at hk
    · next hclaims =>
        rw [Std.ExtTreeMap.getElem?_insert] at hk
        simp only [Std.LawfulEqCmp.compare_eq_iff_eq] at hk
        split at hk
        · next heq =>
            cases hk
            exact ⟨r, hr, hclaims.1, hclaims.2, heq⟩
        · exact h.byScope scope id hk
    · exact h.byScope scope id hk

/-- A claim that is not the replaced assignment's is held as before. -/
private theorem find?_insert_of_claim {r x : AssignmentRecord} {id : AssignmentId}
    (hx : t.find? id = some x) (hne : id ≠ r.id) : (t.insert r).find? id = some x :=
  (Table.find?_insert_of_ne (Ne.symm hne)).trans hx

/-- Without the claims of an assignment it does not matter what becomes of that assignment. -/
theorem releaseExisting {r : AssignmentRecord} (h : s.Held) :
    (s.releaseExisting r.id).ClaimedIn (s.assignments.insert r) := by
  unfold FabricState.releaseExisting
  cases hold : s.assignments.find? r.id with
  | none =>
      have hne : ∀ {id x}, s.assignments.find? id = some x → id ≠ r.id := by
        rintro id x hx rfl
        rw [hold] at hx
        cases hx
      refine ⟨fun k id hk ↦ ?_, fun scope id hk ↦ ?_⟩
      · obtain ⟨x, hx, hclaims⟩ := h.byClass k id hk
        exact ⟨x, find?_insert_of_claim hx (hne hx), hclaims⟩
      · obtain ⟨x, hx, hclaims⟩ := h.byScope scope id hk
        exact ⟨x, find?_insert_of_claim hx (hne hx), hclaims⟩
  | some old =>
      have hid : old.id = r.id := Table.key_of_find? hold
      have hsame : ∀ {x}, s.assignments.find? r.id = some x → x = old := fun hx ↦
        Option.some.inj (hx.symm.trans hold)
      unfold releaseClaims
      refine ⟨fun k id hk ↦ ?_, fun scope id hk ↦ ?_⟩
      · have hbefore : s.exclusiveByClass[k]? = some id := by
          simp only at hk
          split at hk
          · rw [Std.ExtTreeMap.getElem?_erase] at hk
            split at hk
            · cases hk
            · exact hk
          · exact hk
        obtain ⟨x, hx, hclaims⟩ := h.byClass k id hbefore
        refine ⟨x, find?_insert_of_claim hx ?_, hclaims⟩
        -- the claim of the assignment itself is released
        rintro rfl
        obtain rfl := hsame hx
        simp only [hclaims.2.2, hid, hbefore, if_true, Std.ExtTreeMap.getElem?_erase_self] at hk
        cases hk
      · have hbefore : s.exclusiveByScope[scope]? = some id := by
          simp only at hk
          split at hk
          · rw [Std.ExtTreeMap.getElem?_erase] at hk
            split at hk
            · cases hk
            · exact hk
          · exact hk
        obtain ⟨x, hx, hclaims⟩ := h.byScope scope id hbefore
        refine ⟨x, find?_insert_of_claim hx ?_, hclaims⟩
        rintro rfl
        obtain rfl := hsame hx
        simp only [hclaims.2.2, hid, hbefore, if_true, Std.ExtTreeMap.getElem?_erase_self] at hk
        cases hk

/-- Storing an assignment keeps every claim held. -/
theorem insertAssignment (h : s.Held) (r : AssignmentRecord) : (s.insertAssignment r).Held := by
  unfold Held
  rw [insertAssignment_assignments]
  have hr : (s.assignments.insert r).find? r.id = some r := Table.find?_insert_self s.assignments r
  refine ((releaseExisting (r := r) h).acquireClaims hr).of_eq ?_ ?_
  · rw [insertAssignment_eq]
  · rw [insertAssignment_eq]

/-- The claims of a list of assignments, acquired one after another. -/
private theorem rebuilt {rs : List AssignmentRecord} (hrs : ∀ r ∈ rs, t.find? r.id = some r)
    (h : s.ClaimedIn t) : (rs.foldl rebuildRecord s).ClaimedIn t := by
  induction rs generalizing s with
  | nil => exact h
  | cons r rs ih =>
      refine ih (fun x hx ↦ hrs x (List.mem_cons_of_mem _ hx)) ?_
      unfold rebuildRecord
      split
      · have hraised : (s.raiseCounters r).ClaimedIn t := h.of_eq rfl rfl
        exact hraised.acquireClaims (hrs r List.mem_cons_self)
      · exact h

end ClaimedIn

/-- A rebuilding leaves held claims only. -/
theorem held_rebuildIndexes (s : FabricState) : s.rebuildIndexes.Held := by
  unfold Held
  rw [rebuildIndexes_assignments]
  exact (ClaimedIn.rebuilt (t := s.assignments) (fun r hr ↦ Table.mem_values.mp hr)
    (ClaimedIn.empty s.assignments rfl rfl)).of_eq rfl rfl

namespace Held

variable {s s' : FabricState}

theorem of_eq (h : s.Held) (hassignments : s'.assignments = s.assignments)
    (hclass : s'.exclusiveByClass = s.exclusiveByClass)
    (hscope : s'.exclusiveByScope = s.exclusiveByScope) : s'.Held := by
  unfold Held
  rw [hassignments]
  exact ClaimedIn.of_eq h hclass hscope

end Held

/-- A conflict is with a holder of authority. -/
theorem Held.exclusiveConflict {s : FabricState} (h : s.Held) {scope : ScopeId}
    {cls : FunctionClass} {mode : ExclusiveKeyMode} {replacing holder : AssignmentId}
    (hc : s.exclusiveConflict scope cls mode replacing = some holder) :
    ∃ r, s.assignments.find? holder = some r ∧ r.holdsExclusive = true ∧ r.scopeId = scope := by
  unfold FabricState.exclusiveConflict at hc
  split at hc
  · cases hc
  · split at hc
    · next hfilter =>
        cases hc
        obtain ⟨hclaim, -⟩ := Option.filter_eq_some_iff.mp hfilter
        obtain ⟨r, hr, hclaims⟩ := h.byScope _ _ hclaim
        exact ⟨r, hr, hclaims.1, hclaims.2.2⟩
    · cases mode with
      | perClass =>
          obtain ⟨hclaim, -⟩ := Option.filter_eq_some_iff.mp hc
          obtain ⟨r, hr, hclaims⟩ := h.byClass _ _ hclaim
          exact ⟨r, hr, hclaims.1, congrArg ExclusivityKey.scope hclaims.2.2⟩
      | perScope =>
          obtain ⟨⟨k, id⟩, hfound, rfl⟩ := Option.map_eq_some_iff.mp hc
          have hclaim := Std.ExtTreeMap.mem_toList_iff_getElem?_eq_some.mp
            (List.mem_of_find?_eq_some hfound)
          have hk := List.find?_some hfound
          simp only [ne_eq, decide_eq_true_eq] at hk
          obtain ⟨r, hr, hclaims⟩ := h.byClass _ _ hclaim
          exact ⟨r, hr, hclaims.1, (congrArg ExclusivityKey.scope hclaims.2.2).trans hk.1⟩

end FabricState

open FabricState

/-! ## Replaced holders -/

theorem FabricState.Issue.assignments {s t : FabricState} {i : Issued} (h : s.Issue i t) :
    t.assignments = s.assignments := by
  cases h <;> rfl

/-- Issuing an identity leaves the assignments. -/
theorem FabricState.Issues.assignments {s t : FabricState} {i : Identity} (h : s.Issues i t) :
    t.assignments = s.assignments := by
  obtain ⟨s₁, s₂, s₃, h₁, h₂, h₃, h₄⟩ := h
  rw [h₄.assignments, h₃.assignments, h₂.assignments, h₁.assignments]

/-- A revalidation finds the assignments of the state the operation began in. -/
theorem Op.revalidation_assignments {c : FabricConfig} {now : ClockReadings}
    {s base : FabricState} {op : Op} {t : Micros}
    (h : op.revalidation c now s = some (base, t)) : base.assignments = s.assignments := by
  cases op with
  | ingestTopology | ingestCapabilities | ingestPolicy | ingestObservations
  | withdrawAuthority =>
    simp only [Op.revalidation] at h
    split at h
    · next d hd =>
      cases h
      rw [(Op.delivery_frame hd).2]
    · cases h
  | revalidate =>
    cases h
    rfl
  | _ => cases h

/-- What a step stores with no assignment there, it stores alone. -/
theorem Stores.alone {c : FabricConfig} {now : ClockReadings} {s₀ s : FabricState} {op : Op}
    {v : RecordedAssignment} (h : Stores c now s₀ s op v) (hnone : s₀.assignments.values = []) :
    s.assignments.values = [] ∧ op.authorization c now s₀ ≠ none := by
  have hfind : ∀ id, s₀.assignments.find? id = none := by
    intro id
    cases hr : s₀.assignments.find? id with
    | none => rfl
    | some r =>
      have hmem := Table.mem_values_of_find? hr
      rw [hnone] at hmem
      cases hmem
  cases h with
  | revalidated hop _ _ hbase _ =>
    rw [Op.revalidation_assignments hop, hfind] at hbase
    cases hbase
  | revoked hs hr _ _ =>
    rw [hs, hfind] at hr
    cases hr
  | reauthorized _ hr _ =>
    rw [hfind] at hr
    cases hr
  | reported hs hr _ _ =>
    rw [hs, hfind] at hr
    cases hr
  | superseded ha hs _ hr =>
    rw [hs.assignments, hfind] at hr
    cases hr
  | @created _ p options auth t i issued ha hi hs =>
    have hsame : s = issued := by
      rw [hs]
      unfold FabricState.superseding
      rw [hi.assignments, hfind]
      exact ite_self _
    rw [hsame, hi.assignments, ha.asked]
    exact ⟨hnone, Option.some_ne_none _⟩

/-- A step that authorizes nothing and finds no assignment leaves none. -/
theorem Step.unplaced {c : FabricConfig} {m : Impl} {st : Step}
    (hstart : ∀ boot, st.op ≠ .start boot) (hcrash : st.op ≠ .crash)
    (hnone : m.state.assignments.values = [])
    (hasked : st.op.authorization c st.now m.state = none) :
    (st.next c m).state.assignments.values = [] := by
  have hsame : (st.next c m).state.assignments = m.state.assignments := by
    apply Step.active (P := fun m' ↦ m'.state.assignments = m.state.assignments) hstart hcrash rfl
    intro m₁ m₂ hc _ hm₁
    rcases hc.assignments hcrash with h | ⟨v, _, _, _, hv, _⟩
    · rw [h, hm₁]
    · exact absurd hasked (hv.alone hnone).2
  rw [hsame, hnone]

/-- The identifier of an identity is the one the assignment counter issues next. -/
theorem FabricState.Issues.issueAssignmentId {s t : FabricState} {i : Identity}
    (h : s.Issues i t) : ∃ issued, s.issueAssignmentId = .ok (i.id, issued) := by
  obtain ⟨s₁, s₂, s₃, h₁, -⟩ := h
  generalize hi : Issued.assignment i.id = issued at h₁
  cases h₁ with
  | assignment ordinal id hadd hid =>
      cases hi
      refine ⟨{ s with nextAssignmentOrdinal := ordinal }, ?_⟩
      unfold FabricState.issueAssignmentId
      simp only [hadd, hid]
      rfl
  | _ => cases hi

/-- A state issues no empty identifier. -/
theorem FabricState.Issues.id_ne_empty {s t : FabricState} {i : Identity} (h : s.Issues i t) :
    i.id ≠ .empty := by
  obtain ⟨s₁, s₂, s₃, h₁, -⟩ := h
  generalize hi : Issued.assignment i.id = issued at h₁
  cases h₁ with
  | assignment ordinal id hadd hid =>
      cases hi
      unfold Token.parse at hid
      split at hid
      · intro hempty
        rw [← Except.ok.inj hid] at hempty
        exact absurd (congrArg Token.value hempty) (by simp [ascii, Token.empty])
      · cases hid
  | _ => cases hi

/-- What is stored has the identifier of an assignment that was found, or an issued one. -/
theorem Stores.id_cases {c : FabricConfig} {now : ClockReadings} {s₀ s : FabricState} {op : Op}
    {v : RecordedAssignment} (h : Stores c now s₀ s op v) :
    (∃ r, s.assignments.find? v.record.id = some r) ∨
      ∃ i issued, s₀.Issues i issued ∧ v.record.id = i.id := by
  have hfound : ∀ {t : Table AssignmentRecord} {id : AssignmentId} {r : AssignmentRecord},
      t.find? id = some r → r.id = v.record.id → ∃ r, t.find? v.record.id = some r := by
    intro t id r hr hid
    have hkey : r.id = id := Table.key_of_find? hr
    exact ⟨r, by rw [← hid, hkey, hr]⟩
  cases h with
  | revalidated _ _ hfind _ hr =>
      refine .inl (hfound hfind ?_)
      rw [revalidated_continues hr]
  | revoked _ hfind _ _ => exact .inl (hfound hfind rfl)
  | reauthorized hs hfind _ =>
      obtain ⟨s₁, s₂, h₁, h₂, h₃⟩ := hs
      left
      rw [h₃.assignments, h₂.assignments, h₁.assignments]
      exact hfound hfind rfl
  | reported _ hfind _ hr =>
      refine .inl (hfound hfind ?_)
      rw [(effectStep_eq_some hr).1]
  | superseded _ _ _ hfind => exact .inl (hfound hfind rfl)
  | created _ hi _ => exact .inr ⟨_, _, hi, rfl⟩

/-- The holder of an accepted replacement is the one the search finds, if it finds one. -/
theorem FabricState.replacementChecks_ok {s : FabricState} {p : AssignmentPlan} {scope : ScopeId}
    {rule : PolicyRule} {allowReplacement : Bool} {now : Micros} {replacing : AssignmentId}
    (h : s.replacementChecks p scope rule allowReplacement now = .ok replacing) :
    p.exclusivity = .exclusive ∧
        s.exclusiveConflict scope p.cls p.exclusiveKey .empty = some replacing ∨
      (p.exclusivity = .exclusive → s.exclusiveConflict scope p.cls p.exclusiveKey .empty = none) ∧
        replacing = .empty := by
  unfold FabricState.replacementChecks at h
  split at h
  · next hexclusive =>
      split at h
      · next hnone => exact .inr ⟨fun _ ↦ hnone, (Except.ok.inj h).symm⟩
      · next hconflict =>
          obtain ⟨-, h⟩ := require_bind_eq_ok.mp h
          obtain ⟨-, h⟩ := require_bind_eq_ok.mp h
          rw [← Except.ok.inj h]
          exact .inl ⟨hexclusive, hconflict⟩
  · next hshared => exact .inr ⟨fun h ↦ absurd h hshared, (Except.ok.inj h).symm⟩

/-- The holder an authorization replaces holds authority over the scope of the plan. -/
theorem Authorized.replacing_holds {c : FabricConfig} {now : ClockReadings} {s : FabricState}
    {op : Op} {p : AssignmentPlan} {options : ApplyOptions} {auth : Authorization} {t : Micros}
    (h : Authorized c now s op p options auth t) (hs : s.Held) (hne : auth.replacing ≠ .empty) :
    ∃ r, s.assignments.find? auth.replacing = some r ∧ r.holdsExclusive = true ∧
      r.scopeId = auth.scope := by
  obtain ⟨⟨_, _, _, _, ha⟩, hauth⟩ := authorizeChecks_eq_ok.mp h.checked
  rcases replacementChecks_ok ha.holder with ⟨-, hconflict⟩ | ⟨-, hnone⟩
  · rw [hauth]
    exact hs.exclusiveConflict hconflict
  · exact absurd hnone hne

/-! ## Runs -/

/-- A change keeps every claim held. -/
theorem Change.held {c : FabricConfig} {st : Step} {m₀ m m' : Impl} (h : Change c st m₀ m m')
    (hm : m.state.Held) : m'.state.Held := by
  cases h with
  | delivered _ hd _ _ =>
      have hnext := Op.delivery_next hd
      refine hm.of_eq ?_ ?_ ?_
      · rw [hnext]
      · rw [hnext]
      · rw [hnext]
  | stored _ _ _ _ _ =>
      unfold FabricState.storing
      rw [recordIdempotency_eq]
      exact (ClaimedIn.insertAssignment hm _).of_eq rfl rfl rfl
  | refused _ _ _ _ _ _ =>
      refine hm.of_eq ?_ ?_ ?_
      · rw [recordIdempotency_eq]
      · rw [recordIdempotency_eq]
      · rw [recordIdempotency_eq]
  | issued _ hi => cases hi <;> exact hm.of_eq rfl rfl rfl
  | stamped => exact hm.of_eq rfl rfl rfl
  | crashed _ => exact ClaimedIn.empty _ rfl rfl
  | _ => exact hm

/-- A start that leaves the runtime running leaves held claims only. -/
theorem Start.held {c : FabricConfig} {now : Micros} {boot : BootId} {m m' : Impl}
    (h : Start c now boot m m') (hm : m.running = true ∨ c.hasStore = false → m.state.Held) :
    m'.running = true ∨ c.hasStore = false → m'.state.Held := by
  intro hrun'
  have hrestarted : ∀ {m₁ m₂ : Impl}, Restarted c boot m m₁ →
      Relation.ReflTransGen (Suspends c now) m₁ m₂ → m₂.state.Held := by
    intro m₁ m₂ hr hs
    induction hs with
    | refl =>
        obtain ⟨l, s, counter, payload, l', -, -, -, -, -, rfl⟩ := hr.exists_recovery
        exact (held_rebuildIndexes s).of_eq rfl rfl rfl
    | tail _ hc ih =>
        cases hc with
        | settled _ => exact ih
        | stored _ _ _ _ _ _ => exact ClaimedIn.insertAssignment ih _
  have hidle : ∀ {s : FabricState} {l : Log}, m.running = false → c.hasStore = true →
      ({ m.opened l with state := s } : Impl).running = true ∨ c.hasStore = false →
      s.Held := by
    intro s l hstop hstore h
    rcases h with h | h
    · exact absurd (hstop.symm.trans h) (by decide)
    · exact absurd (hstore.symm.trans h) (by decide)
  cases h with
  | refused _ => exact hm hrun'
  | bare hbare _ => exact (hm (.inr hbare)).of_eq rfl rfl rfl
  | unreadable hstore hstop _ _ => exact hidle hstop hstore hrun'
  | exhausted hstore hstop _ _ => exact hidle hstop hstore hrun'
  | unrecorded hstore hstop _ _ _ _ => exact hidle hstop hstore hrun'
  | suspending _ hr hs => exact hrestarted hr hs
  | @launched m₁ m₂ _ _ hr hs _ =>
      have hheld : m₂.state.Held := hrestarted hr hs
      exact hheld

/-- The claims of a runtime that runs are held, and without a store those of a stopped one. -/
theorem run_held (c : FabricConfig) (steps : List Step) :
    (run c steps).running = true ∨ c.hasStore = false → (run c steps).state.Held := by
  refine run_induction (P := fun _ m ↦ m.running = true ∨ c.hasStore = false → m.state.Held)
    (fun _ ↦ ClaimedIn.empty _ rfl rfl) (fun steps st ih hrun' ↦ ?_) steps
  by_cases hstart : ∃ boot, st.op = .start boot
  · obtain ⟨boot, hop⟩ := hstart
    exact (st.start_next c _ hop).held (m := (run c steps).facing st.faults) ih hrun'
  have hstart : ∀ boot, st.op ≠ .start boot := fun boot hop ↦ hstart ⟨boot, hop⟩
  cases hrun : (run c steps).running with
  | false =>
      rcases st.next_idle c _ hstart hrun with ⟨b, heq⟩ | ⟨-, heq⟩
      · rw [heq] at hrun' ⊢
        exact ih hrun'
      · rw [heq]
        exact ClaimedIn.empty _ rfl rfl
  | true =>
      have hcourse := st.course c (run c steps) hstart
      generalize st.next c (run c steps) = m' at hcourse
      induction hcourse with
      | refl => exact ih (.inl hrun)
      | tail _ hc hm => exact hc.held hm

/-- No assignment of a run has the empty identifier. -/
theorem run_id_ne_empty (c : FabricConfig) (steps : List Step) :
    (run c steps).state.Every fun r ↦ r.id ≠ .empty := by
  refine (run_every (E := fun _ r ↦ r.id ≠ .empty) (fun _ _ _ h ↦ h) ?_
    (fun _ _ _ _ _ h _ _ ↦ h) steps).memory
  intro steps st s v _ _ hs hv
  rcases hv.stores.id_cases with ⟨r, hr⟩ | ⟨i, issued, hi, hid⟩
  · have hkey : r.id = v.record.id := Table.key_of_find? hr
    exact hkey ▸ hs.find? hr
  · rw [hid]
    exact hi.id_ne_empty

end OffloadFabric
