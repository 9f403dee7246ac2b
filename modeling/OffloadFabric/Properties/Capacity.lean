import OffloadFabric.Fabric.Accounting
import OffloadFabric.Fabric.StoreInvariant

/-!
# Committed demand is the demand of the holders

`release_claims` of `src/fabric.cpp:1662-1700` takes off the demand of whatever record is
overwritten, so the committed demand of a device is at most that of the assignments that hold
authority on it. Along the runs in which every store balances it is the exact demand.
-/

namespace OffloadFabric

open Lib FabricState

/-! ## Every run -/

/-- Nothing is committed beyond the demand of the holders, whatever is stored or rebuilt. -/
theorem storeInvariant_backed : StoreInvariant Backed where
  bare s _ _ hcommitted := by
    intro d k
    have hzero : s.committedOf d k = 0 := by
      simp [committedOf, committedDemandFor, hcommitted]
    omega
  same s t hsame hs := hs.of_eq hsame.assignments hsame.committed
  store s r hs := hs.insertAssignment r
  rebuild s := backed_rebuildIndexes s

/-- **Capacity is never overstated**: in every run the committed demand of a device is at most the
demand of the assignments that hold authority on it. -/
theorem capacity_never_overstated (c : FabricConfig) (steps : List Step) (d : DeviceId)
    (k : Component) : (run c steps).state.committedOf d k ≤ (run c steps).state.heldOn d k := by
  have hbacked := storeInvariant_backed.run c steps
  exact hbacked d k

/-! ## Changes and starts -/

/-- A change that stores nothing leaves the committed demand. -/
theorem Change.accounted {c : FabricConfig} {st : Step} {m₀ m m' : Impl}
    (h : Change c st m₀ m m') (hm : m.state.Accounted)
    (hstores : ∀ v, Stores c st.now m₀.state m.state st.op v →
      m'.state.assignments = m.state.assignments.insert v.record → m.state.Balances v.record) :
    m'.state.Accounted := by
  cases h with
  | delivered _ hd _ _ =>
    have hnext := Op.delivery_next hd
    refine hm.of_eq ?_ ?_
    · rw [hnext]
    · rw [hnext]
  | stored _ hv _ _ _ =>
    have hbalances := hstores _ hv (storing_assignments _ _ _ _ _)
    have hinsert := (accounted_insertAssignment_iff hm _).mpr hbalances
    unfold FabricState.storing
    rw [recordIdempotency_eq]
    exact hinsert.of_eq rfl rfl
  | refused _ _ _ _ _ _ =>
    rw [recordIdempotency_eq]
    exact hm.of_eq rfl rfl
  | issued _ hi => cases hi <;> exact hm.of_eq rfl rfl
  | stamped => exact hm.of_eq rfl rfl
  | crashed _ => exact accounted_empty
  | _ => exact hm

/-- A start that leaves a store open and the runtime up, or no store, leaves it accounted: what a
restart suspends gives up all that was committed. -/
theorem Start.accounted {c : FabricConfig} {now : Micros} {boot : BootId} {m m' : Impl}
    (h : Start c now boot m m') (hm : m.state.Accounted)
    (hup : m'.storeOpen = true → m'.running = true) : m'.state.Accounted := by
  have hbacked : ∀ {m₁ m₂ : Impl}, Restarted c boot m m₁ →
      Relation.ReflTransGen (Suspends c now) m₁ m₂ →
      m₂.state.Backed ∧ m₂.storeOpen = true ∧ m₂.running = false := by
    intro m₁ m₂ hr hs
    induction hs with
    | refl =>
      have hstop := hr.stopped
      obtain ⟨l, s, counter, payload, l', -, -, -, -, -, rfl⟩ := hr.exists_recovery
      exact ⟨(backed_rebuildIndexes s).of_eq rfl rfl, rfl, hstop⟩
    | tail _ hc ih =>
      cases hc with
      | settled _ => exact ih
      | stored _ _ _ _ _ _ => exact ⟨ih.1.insertAssignment _, ih.2⟩
  have hidle : m'.storeOpen = true → m'.running = false → m'.state.Accounted := by
    intro hopen hstop
    rw [hup hopen] at hstop
    cases hstop
  cases h with
  | refused _ => exact hm
  | bare _ _ => exact hm.of_eq rfl rfl
  | unreadable _ hstop _ _ => exact hidle rfl hstop
  | exhausted _ hstop _ _ => exact hidle rfl hstop
  | unrecorded _ hstop _ _ _ _ => exact hidle rfl hstop
  | suspending _ hr hs =>
    obtain ⟨-, hopen, hstop⟩ := hbacked hr hs
    exact hidle hopen hstop
  | @launched m₁ m₂ _ _ hr hs hall =>
    have hnone : ∀ r ∈ m₂.state.assignments.values, r.state.holdsAuthority = false := by
      intro r hr
      cases hholds : r.state.holdsAuthority with
      | false => rfl
      | true =>
        rw [hall r hr (AssignmentState.isLive_of_holdsAuthority hholds)] at hholds
        simp [AssignmentState.holdsAuthority] at hholds
    exact (hbacked hr hs).1.accounted hnone

/-! ## Runs -/

/-- Every store of the step balances, and a start that opens its store comes up. -/
structure Step.Balanced (c : FabricConfig) (m : Impl) (st : Step) : Prop where
  stores : m.running = true → ∀ s v, st.Storing c m s v → s.Balances v.record
  comesUp : ∀ boot, st.op = .start boot → (st.next c m).storeOpen = true →
    (st.next c m).running = true

/-- **A balanced step keeps the committed demand exact.** -/
theorem Step.Balanced.accounted {c : FabricConfig} {m : Impl} {st : Step}
    (h : st.Balanced c m) (hm : m.state.Accounted) : (st.next c m).state.Accounted := by
  by_cases hstart : ∃ boot, st.op = .start boot
  · obtain ⟨boot, hop⟩ := hstart
    exact (st.start_next c m hop).accounted (m := m.facing st.faults) hm (h.comesUp boot hop)
  have hstart : ∀ boot, st.op ≠ .start boot := fun boot hop ↦ hstart ⟨boot, hop⟩
  cases hrun : m.running with
  | false =>
    rcases st.next_idle c m hstart hrun with ⟨b, heq⟩ | ⟨-, heq⟩
    · rw [heq]
      exact hm
    · rw [heq]
      exact accounted_empty
  | true =>
    suffices haccounted : ∀ m', Relation.ReflTransGen (Change c st (m.facing st.faults))
        (m.facing st.faults) m' →
        Relation.ReflTransGen (Change c st (m.facing st.faults)) m' (st.next c m) →
        m'.state.Accounted from haccounted _ (st.course c m hstart) .refl
    intro m' hbefore
    induction hbefore with
    | refl => exact fun _ ↦ hm
    | @tail m₁ m₂ hbefore hc ih =>
      intro hafter
      exact hc.accounted (ih (.head hc hafter)) fun v hv heq ↦
        h.stores hrun _ v ⟨hv, m₁, m₂, rfl, heq, hbefore, hafter⟩

/-- A store into an empty table balances. -/
private theorem balances_alone {s : FabricState} (hnone : s.assignments.values = [])
    (r : AssignmentRecord) : s.Balances r := by
  constructor
  · intro old hold
    have hmem := Table.mem_values_of_find? hold
    rw [hnone] at hmem
    cases hmem
  · intro _ k
    have htotal := Table.total_insert s.assignments r (AssignmentRecord.commits r.device k)
    have hzero : s.assignments.total (AssignmentRecord.commits r.device k) = 0 := by
      unfold Table.total
      rw [hnone]
      rfl
    have hle := r.commits_le_releases r.device k
    have hlt : r.releases r.device k < 2 ^ 64 := by
      unfold AssignmentRecord.releases
      rw [if_pos rfl]
      exact UInt64.toNat_lt _
    rw [heldOn_insertAssignment]
    omega

/-- A step that finds no assignment is balanced, unless it is a start. -/
theorem Step.balanced_of_unplaced {c : FabricConfig} {m : Impl} (st : Step)
    (hstart : ∀ boot, st.op ≠ .start boot) (hnone : m.state.assignments.values = []) :
    st.Balanced c m :=
  ⟨fun _ _ _ hv ↦ balances_alone (hv.stores.alone hnone).1 _, fun boot hop ↦
    absurd hop (hstart boot)⟩

end OffloadFabric
