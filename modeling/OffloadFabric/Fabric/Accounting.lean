import OffloadFabric.Fabric.Steps
import OffloadFabric.Lib.RunningTotal

/-!
# Committed demand

The committed demand of a device (`src/fabric.cpp:1628-1727`) as a running total beside the table
of assignments. A store takes off the demand of the assignment it overwrites, whether that held
authority or not, so the total is at most the demand of the holders and is the exact demand when
no demand is taken off that was not committed.
-/

namespace OffloadFabric

open Lib Lib.RunningTotal

/-- What an assignment commits of a component of a device. -/
def AssignmentRecord.commits (d : DeviceId) (k : Component) (r : AssignmentRecord) : Nat :=
  if r.state.holdsAuthority ∧ r.device = d then (r.demand.get k).toNat else 0

/-- What the release of an assignment takes off a component of a device. -/
def AssignmentRecord.releases (d : DeviceId) (k : Component) (r : AssignmentRecord) : Nat :=
  if r.device = d then (r.demand.get k).toNat else 0

theorem AssignmentRecord.commits_le_releases (d : DeviceId) (k : Component)
    (r : AssignmentRecord) : r.commits d k ≤ r.releases d k := by
  unfold commits releases
  split
  · next h =>
    rw [if_pos h.2]
  · exact Nat.zero_le _

namespace FabricState

open AssignmentRecord

variable {s s' : FabricState}

/-- The committed demand of a device in one component. -/
def committedOf (s : FabricState) (d : DeviceId) (k : Component) : Nat :=
  ((s.committedDemandFor d).get k).toNat

/-- The exact demand of the assignments that hold authority on a device. -/
def heldOn (s : FabricState) (d : DeviceId) (k : Component) : Nat :=
  s.assignments.total (commits d k)

/-- The committed demand of every device is that of its holders. -/
def Accounted (s : FabricState) : Prop := ∀ d k, s.committedOf d k = s.heldOn d k

/-- The committed demand of no device is beyond that of its holders. -/
def Backed (s : FabricState) : Prop := ∀ d k, s.committedOf d k ≤ s.heldOn d k

theorem Accounted.of_eq (h : s.Accounted) (hassignments : s'.assignments = s.assignments)
    (hcommitted : s'.committed = s.committed) : s'.Accounted := by
  intro d k
  unfold committedOf committedDemandFor heldOn
  rw [hassignments, hcommitted]
  exact h d k

theorem Backed.of_eq (h : s.Backed) (hassignments : s'.assignments = s.assignments)
    (hcommitted : s'.committed = s.committed) : s'.Backed := by
  intro d k
  unfold committedOf committedDemandFor heldOn
  rw [hassignments, hcommitted]
  exact h d k

/-! ## One store -/

private theorem committedOf_of_insert {t : FabricState} {e : DeviceId} {v : DemandVector}
    (h : t.committed = s.committed.insert e v) (d : DeviceId) (k : Component) :
    t.committedOf d k = if e = d then (v.get k).toNat else s.committedOf d k := by
  unfold committedOf committedDemandFor
  rw [h, Std.ExtTreeMap.getElem?_insert]
  simp only [Std.LawfulEqCmp.compare_eq_iff_eq]
  split <;> rfl

private theorem toNat_checkedSub_getD (a b : UInt64) :
    ((checkedSub a b).getD 0).toNat = a.toNat - b.toNat := by
  cases h : checkedSub a b with
  | none =>
    have := checkedSub_eq_none.mp h
    simp only [Option.getD_none, UInt64.toNat_zero]
    omega
  | some c =>
    rw [Option.getD_some, (checkedSub_eq_some.mp h).2]

private theorem toNat_checkedAdd_getD (a b : UInt64) :
    ((checkedAdd a b).getD 0).toNat =
      if a.toNat + b.toNat < 2 ^ 64 then a.toNat + b.toNat else 0 := by
  cases h : checkedAdd a b with
  | none =>
    have := checkedAdd_eq_none.mp h
    rw [if_neg (by omega)]
    rfl
  | some c =>
    obtain ⟨hlt, hc⟩ := checkedAdd_eq_some.mp h
    rw [if_pos hlt, Option.getD_some, hc]

theorem committedOf_releaseClaims (s : FabricState) (r : AssignmentRecord) (d : DeviceId)
    (k : Component) : (s.releaseClaims r).committedOf d k = s.committedOf d k - r.releases d k := by
  rw [committedOf_of_insert (t := s.releaseClaims r) rfl, DemandVector.get_ofFn,
    toNat_checkedSub_getD]
  unfold releases
  split
  · next h =>
    rw [h]
    rfl
  · rfl

theorem committedOf_acquireClaims (s : FabricState) (r : AssignmentRecord) (d : DeviceId)
    (k : Component) : (s.acquireClaims r).committedOf d k =
      exchange (2 ^ 64) (s.committedOf d k) 0 (r.commits d k) := by
  have hsame : exchange (2 ^ 64) (s.committedOf d k) 0 0 = s.committedOf d k :=
    if_pos (UInt64.toNat_lt _)
  unfold commits
  by_cases hholds : r.state.holdsAuthority = true
  · rw [committedOf_of_insert (t := s.acquireClaims r) (if_pos hholds), DemandVector.get_ofFn,
      toNat_checkedAdd_getD]
    by_cases hd : r.device = d
    · subst hd
      rw [if_pos rfl, if_pos (And.intro hholds rfl)]
      rfl
    · rw [if_neg hd, if_neg fun h ↦ hd h.2, hsame]
  · rw [if_neg fun h ↦ hholds h.1, hsame]
    have hcommitted : (s.acquireClaims r).committed = s.committed := if_neg hholds
    unfold committedOf committedDemandFor
    rw [hcommitted]

/-- A store exchanges the demand of the overwritten record for that of its own. -/
theorem committedOf_insertAssignment (s : FabricState) (r : AssignmentRecord) (d : DeviceId)
    (k : Component) : (s.insertAssignment r).committedOf d k =
      exchange (2 ^ 64) (s.committedOf d k) (s.assignments.measureAt (releases d k) r.id)
        (r.commits d k) := by
  have hcommitted : (s.insertAssignment r).committedOf d k =
      ((s.releaseExisting r.id).acquireClaims r).committedOf d k := by
    unfold committedOf committedDemandFor
    rw [insertAssignment_eq]
  rw [hcommitted, committedOf_acquireClaims]
  unfold releaseExisting Table.measureAt
  cases s.assignments.find? r.id with
  | none => rfl
  | some old => rw [committedOf_releaseClaims]; rfl

theorem heldOn_insertAssignment (s : FabricState) (r : AssignmentRecord) (d : DeviceId)
    (k : Component) : (s.insertAssignment r).heldOn d k =
      (s.assignments.insert r).total (commits d k) := by
  unfold heldOn
  rw [insertAssignment_assignments]

/-- Nothing is committed beyond the demand of the holders by a store. -/
theorem Backed.insertAssignment (h : s.Backed) (r : AssignmentRecord) :
    (s.insertAssignment r).Backed := by
  intro d k
  rw [committedOf_insertAssignment, heldOn_insertAssignment]
  exact exchange_le_total (commits_le_releases d k) (2 ^ 64) s.assignments r (h d k)

/-- The store of an assignment balances: the one it overwrites holds authority, or has demand only
where nothing is held on its device, and the demand of the holders of the device fits. -/
structure Balances (s : FabricState) (r : AssignmentRecord) : Prop where
  released : ∀ old, s.assignments.find? r.id = some old → old.state.holdsAuthority = false →
    ∀ k, old.demand.get k = 0 ∨ s.heldOn old.device k = 0
  fits : r.state.holdsAuthority = true → ∀ k, (s.insertAssignment r).heldOn r.device k < 2 ^ 64

private theorem released_iff (d : DeviceId) (k : Component) (r : AssignmentRecord) :
    s.heldOn d k - s.assignments.measureAt (releases d k) r.id =
        s.heldOn d k - s.assignments.measureAt (commits d k) r.id ↔
      ∀ old, s.assignments.find? r.id = some old → old.state.holdsAuthority = false →
        old.device = d → old.demand.get k = 0 ∨ s.heldOn d k = 0 := by
  have hzero : ∀ x : UInt64, x = 0 ↔ x.toNat = 0 := fun x ↦
    (UInt64.toNat_inj (b := 0)).symm
  unfold Table.measureAt
  cases s.assignments.find? r.id with
  | none => simp
  | some old =>
    simp only [Option.elim, Option.some.injEq, forall_eq']
    unfold releases commits
    by_cases hd : old.device = d
    · cases hholds : old.state.holdsAuthority with
      | true => simp [hd]
      | false =>
        simp only [hd, if_true, Bool.false_eq_true, false_and, if_false, forall_const]
        rw [hzero]
        omega
    · simp [hd]

/-- **A store keeps an accounted state accounted exactly when it balances.** -/
theorem accounted_insertAssignment_iff (h : s.Accounted) (r : AssignmentRecord) :
    (s.insertAssignment r).Accounted ↔ s.Balances r := by
  have hone : ∀ d k, (s.insertAssignment r).committedOf d k = (s.insertAssignment r).heldOn d k ↔
      s.heldOn d k - s.assignments.measureAt (releases d k) r.id =
          s.heldOn d k - s.assignments.measureAt (commits d k) r.id ∧
        (s.insertAssignment r).heldOn d k < 2 ^ 64 := by
    intro d k
    rw [committedOf_insertAssignment, h d k, heldOn_insertAssignment]
    exact exchange_eq_total_iff (commits_le_releases d k) (by decide) s.assignments r
  constructor
  · intro haccounted
    refine ⟨fun old hold hnone k ↦ ?_, fun _ k ↦ ((hone _ k).mp (haccounted _ k)).2⟩
    exact (released_iff _ k r).mp ((hone old.device k).mp (haccounted _ k)).1 old hold hnone rfl
  · intro hbalances d k
    refine (hone d k).mpr ⟨(released_iff d k r).mpr fun old hold hnone hd ↦ ?_, ?_⟩
    · rw [← hd]
      exact hbalances.released old hold hnone k
    · by_cases hr : r.state.holdsAuthority = true ∧ r.device = d
      · rw [← hr.2]
        exact hbalances.fits hr.1 k
      · -- the holders of another device are not more than before
        have htotal := Table.total_insert s.assignments r (commits d k)
        have hnone : r.commits d k = 0 := if_neg hr
        have hlt : s.committedOf d k < 2 ^ 64 := UInt64.toNat_lt _
        rw [h d k] at hlt
        rw [heldOn_insertAssignment]
        unfold heldOn at hlt
        omega

/-! ## Rebuilding -/

private theorem backed_foldl (rs : List AssignmentRecord) (s : FabricState) (d : DeviceId)
    (k : Component) {n : Nat} (hn : s.committedOf d k ≤ n) :
    (rs.foldl rebuildRecord s).committedOf d k ≤ n + (rs.map (commits d k)).sum := by
  induction rs generalizing s n with
  | nil => exact hn
  | cons r rs ih =>
    rw [List.foldl_cons, List.map_cons, List.sum_cons, ← Nat.add_assoc]
    apply ih
    unfold rebuildRecord
    split
    · have hraised : (s.raiseCounters r).committedOf d k = s.committedOf d k := rfl
      rw [committedOf_acquireClaims, hraised]
      unfold exchange
      split <;> omega
    · exact hn.trans (Nat.le_add_right _ _)

/-- Nothing is committed beyond the demand of the holders by a rebuilding. -/
theorem backed_rebuildIndexes (s : FabricState) : s.rebuildIndexes.Backed := by
  intro d k
  have hfold := backed_foldl s.assignments.values
    { s with exclusiveByClass := ∅, exclusiveByScope := ∅, committed := ∅, scopeSpecs := ∅ } d k
    (n := 0) (by simp [committedOf, committedDemandFor])
  rw [Nat.zero_add] at hfold
  unfold heldOn Table.total
  rw [rebuildIndexes_assignments]
  exact hfold

/-- Nothing is committed on behalf of holders that are none. -/
theorem Backed.accounted (h : s.Backed)
    (hnone : ∀ r ∈ s.assignments.values, r.state.holdsAuthority = false) : s.Accounted := by
  intro d k
  have hheld : s.heldOn d k = 0 := by
    refine Table.total_eq_zero.mpr fun r hr ↦ ?_
    unfold commits
    rw [hnone r hr]
    simp
  have hle := h d k
  omega

theorem accounted_empty : ({} : FabricState).Accounted := by
  intro d k
  simp [committedOf, committedDemandFor, heldOn, Table.total]

end FabricState

end OffloadFabric
