import OffloadFabric.Fabric.Audit
import Mathlib.Data.List.TakeWhile

/-!
# What the invariant collector checks

The conditions under which each loop of `collect_invariants` adds no violation, and from them all
conditions under which its report is clean.
-/

namespace OffloadFabric

open Lib Lib.Index

namespace AssignmentRecord

/-- The scope that a record claims as a whole. -/
def wholeKey (r : AssignmentRecord) : Option ScopeId :=
  if r.holdsExclusive ∧ r.exclusiveKey = .perScope then some r.scopeId else none

/-- The scope and class that a record claims. -/
def classKey (r : AssignmentRecord) : Option ExclusivityKey :=
  if r.holdsExclusive ∧ r.exclusiveKey = .perClass then some r.exclusivityKey else none

/-- The device that a record holds authority on. -/
def heldDevice (r : AssignmentRecord) : Option DeviceId :=
  if r.state.holdsAuthority then some r.device else none

/-- The grant that a record uses. -/
def usedGrant (r : AssignmentRecord) : Option AuthorityId :=
  if r.state.holdsAuthority ∧ r.authority ≠ .empty then some r.authority else none

/-- The entry of a record's token. -/
def fenceEntry (r : AssignmentRecord) : Option (FencingToken × AssignmentId) :=
  if r.fence.isSet then some (r.fence, r.id) else none

theorem wholeKey_eq_some {r : AssignmentRecord} {scope : ScopeId} :
    r.wholeKey = some scope ↔
      r.holdsExclusive = true ∧ r.exclusiveKey = .perScope ∧ r.scopeId = scope := by
  unfold wholeKey
  split
  · next h => simp [h]
  · next h =>
    simp only [reduceCtorEq, false_iff]
    exact fun hr ↦ h ⟨hr.1, hr.2.1⟩

theorem classKey_eq_some {r : AssignmentRecord} {k : ExclusivityKey} :
    r.classKey = some k ↔
      r.holdsExclusive = true ∧ r.exclusiveKey = .perClass ∧ r.exclusivityKey = k := by
  unfold classKey
  split
  · next h => simp [h]
  · next h =>
    simp only [reduceCtorEq, false_iff]
    exact fun hr ↦ h ⟨hr.1, hr.2.1⟩

theorem heldDevice_eq_some {r : AssignmentRecord} {d : DeviceId} :
    r.heldDevice = some d ↔ r.state.holdsAuthority = true ∧ r.device = d := by
  unfold heldDevice
  split
  · next h => simp [h]
  · next h => simp [h]

theorem fenceEntry_eq_some {r : AssignmentRecord} {fence : FencingToken} {id : AssignmentId} :
    r.fenceEntry = some (fence, id) ↔ r.fence.isSet ∧ r.fence = fence ∧ r.id = id := by
  unfold fenceEntry
  split
  · next h => simp [h]
  · next h => simp [h]

end AssignmentRecord

/-- A sum of demands, with zero for a component that overflows. -/
def DemandVector.plus (v : DemandVector) (r : AssignmentRecord) : DemandVector :=
  .ofFn fun c ↦ (checkedAdd (v.get c) (r.demand.get c)).getD 0

namespace AuditedState

open AssignmentRecord InvariantReport

variable {s : AuditedState} {report : InvariantReport}

/-- The assignments of a state. -/
def records (s : AuditedState) : List AssignmentRecord := s.assignments.toList.map Prod.snd

/-- The recomputed demand on a device. -/
def demandOn (s : AuditedState) (d : DeviceId) : DemandVector :=
  (s.records.filter fun r ↦ r.heldDevice = some d).foldl .plus {}

/-- The number of assignments that use a grant. -/
def uses (s : AuditedState) (id : AuthorityId) : Nat :=
  s.records.countP fun r ↦ r.usedGrant = some id

/-! ## The tallies -/

/-- A record enters each tally under its key. -/
theorem tally_eq (t : Tallies) (r : AssignmentRecord) :
    tally t r =
      { wholeScopeClaims := gather wholeKey (fun n _ ↦ n + 1) 0 t.wholeScopeClaims r
        classClaims := gather classKey (fun n _ ↦ n + 1) 0 t.classClaims r
        recomputed := gather heldDevice .plus {} t.recomputed r
        fences := put fenceEntry t.fences r
        grantUses := gather usedGrant (fun n _ ↦ n + 1) 0 t.grantUses r } := by
  simp only [tally, gather, put, wholeKey, classKey, heldDevice, usedGrant, fenceEntry,
    Tallies.mk.injEq]
  refine ⟨?_, ?_, ?_, ?_, ?_⟩ <;> split <;> rfl

/-- The tallies of a list of records. -/
theorem foldl_tally (rs : List AssignmentRecord) (t : Tallies) :
    rs.foldl tally t =
      { wholeScopeClaims := rs.foldl (gather wholeKey (fun n _ ↦ n + 1) 0) t.wholeScopeClaims
        classClaims := rs.foldl (gather classKey (fun n _ ↦ n + 1) 0) t.classClaims
        recomputed := rs.foldl (gather heldDevice .plus {}) t.recomputed
        fences := rs.foldl (put fenceEntry) t.fences
        grantUses := rs.foldl (gather usedGrant (fun n _ ↦ n + 1) 0) t.grantUses } := by
  induction rs generalizing t with
  | nil => rfl
  | cons r rs ih => rw [List.foldl_cons, ih, tally_eq]; rfl

theorem auditAssignment_tallies (es : List (AssignmentId × AssignmentRecord))
    (a : InvariantReport × Tallies) :
    (es.foldl s.auditAssignment a).2 = (es.map Prod.snd).foldl tally a.2 := by
  induction es generalizing a with
  | nil => rfl
  | cons e es ih => rw [List.foldl_cons, ih]; rfl

/-- The tallies of the assignments of a state. -/
def tallied (s : AuditedState) : Tallies := s.records.foldl tally {}

theorem tallied_wholeScopeClaims :
    s.tallied.wholeScopeClaims = s.records.foldl (gather wholeKey (fun n _ ↦ n + 1) 0) ∅ := by
  rw [tallied, foldl_tally]

theorem tallied_classClaims :
    s.tallied.classClaims = s.records.foldl (gather classKey (fun n _ ↦ n + 1) 0) ∅ := by
  rw [tallied, foldl_tally]

theorem tallied_recomputed :
    s.tallied.recomputed = s.records.foldl (gather heldDevice .plus {}) ∅ := by
  rw [tallied, foldl_tally]

/-- The tally of a grant is the number of assignments that use it. -/
theorem getD_grantUses (id : AuthorityId) : s.tallied.grantUses[id]?.getD 0 = s.uses id := by
  rw [tallied, foldl_tally]
  exact getD_count s.records id

theorem mem_wholeScopeClaims {scope : ScopeId} :
    scope ∈ s.tallied.wholeScopeClaims ↔ ∃ r ∈ s.records, r.wholeKey = some scope := by
  rw [tallied_wholeScopeClaims, mem_foldl_gather]
  simp

theorem mem_classClaims {k : ExclusivityKey} :
    k ∈ s.tallied.classClaims ↔ ∃ r ∈ s.records, r.classKey = some k := by
  rw [tallied_classClaims, mem_foldl_gather]
  simp

/-! ## The first loop -/

theorem clean_checkIdentity {id : AssignmentId} {r : AssignmentRecord} :
    (checkIdentity id r report).clean = true ↔
      report.clean = true ∧ (r.id ≠ .empty ∧ r.id = id) ∧
        (r.scope.kind ≠ .global → r.scope.deriveScopeId = .ok r.scopeId) := by
  unfold checkIdentity
  split
  · next hkind =>
    cases hderived : r.scope.deriveScopeId with
    | error e => simp [hkind]
    | ok derived => simp [hkind, and_assoc]
  · next hkind => simp [hkind, and_assoc]

theorem clean_checkFence {fences : Std.ExtTreeMap FencingToken AssignmentId}
    {r : AssignmentRecord} :
    (s.checkFence fences r report).clean = true ↔
      report.clean = true ∧ (r.fence.isSet → ∀ id, fences[r.fence]? = some id → id = r.id) ∧
        (r.fence.isSet → r.fence.epoch ≤ s.epoch.counter) := by
  unfold checkFence
  split
  · next hset => simp [hset, and_assoc]
  · next hset => simp [hset]

/-- A record holds authority on a device of the topology, in the incarnation bound. -/
def Targeted (s : AuditedState) (r : AssignmentRecord) : Prop :=
  ∀ topology, s.topology = some topology → r.state.holdsAuthority = true →
    ∃ device, topology.findDevice r.device = some device ∧ device.incarnation = r.incarnation

theorem clean_checkTarget {r : AssignmentRecord} :
    (s.checkTarget r report).clean = true ↔ report.clean = true ∧ s.Targeted r := by
  unfold checkTarget Targeted
  cases s.topology with
  | none => simp
  | some topology =>
    simp only [Option.some.injEq, forall_eq']
    split
    · next hholds =>
      cases hdevice : topology.findDevice r.device with
      | none => simp [hholds]
      | some device => simp [hholds]
    · next hholds => simp [hholds]

/-- What the first loop checks of a record by itself. -/
structure Sound (s : AuditedState) (id : AssignmentId) (r : AssignmentRecord) : Prop where
  named : r.id ≠ .empty ∧ r.id = id
  scope : r.scope.kind ≠ .global → r.scope.deriveScopeId = .ok r.scopeId
  past : r.fence.isSet → r.fence.epoch ≤ s.epoch.counter
  targeted : s.Targeted r

/-- The tokens of some records are no other record's, nor entered for another. -/
def Unshared (fences : Std.ExtTreeMap FencingToken AssignmentId) (rs : List AssignmentRecord) :
    Prop :=
  ∀ r ∈ rs, r.fence.isSet →
    (∀ id, fences[r.fence]? = some id → id = r.id) ∧ ∀ r' ∈ rs, r'.fence = r.fence → r'.id = r.id

theorem unshared_cons {fences : Std.ExtTreeMap FencingToken AssignmentId} {r : AssignmentRecord}
    {rs : List AssignmentRecord} :
    Unshared fences (r :: rs) ↔
      (r.fence.isSet → ∀ id, fences[r.fence]? = some id → id = r.id) ∧
        Unshared (put fenceEntry fences r) rs := by
  constructor
  · intro h
    refine ⟨fun hset ↦ (h r List.mem_cons_self hset).1, ?_⟩
    intro x hx hset
    obtain ⟨hentered, hothers⟩ := h x (List.mem_cons_of_mem _ hx) hset
    refine ⟨?_, fun y hy ↦ hothers y (List.mem_cons_of_mem _ hy)⟩
    intro id hid
    rcases (getElem?_put _ _ _ _).mp hid with hput | ⟨-, hold⟩
    · obtain ⟨-, hfence, rfl⟩ := fenceEntry_eq_some.mp hput
      exact hothers r List.mem_cons_self hfence
    · exact hentered id hold
  · rintro ⟨hhead, htail⟩
    have hagree : ∀ x ∈ rs, x.fence.isSet → r.fence = x.fence → r.id = x.id := by
      intro x hx hset hfence
      apply (htail x hx hset).1
      exact (getElem?_put _ _ _ _).mpr (.inl (fenceEntry_eq_some.mpr ⟨hfence ▸ hset, hfence, rfl⟩))
    intro x hx hset
    rcases List.mem_cons.mp hx with rfl | hx
    · refine ⟨hhead hset, ?_⟩
      intro y hy hfence
      rcases List.mem_cons.mp hy with rfl | hy
      · rfl
      · exact (hagree y hy (hfence ▸ hset) hfence.symm).symm
    · constructor
      · intro id hid
        by_cases hfence : r.fence = x.fence
        · -- the head's entry covers what was entered before it
          rw [← hagree x hx hset hfence]
          rw [← hfence] at hid
          exact hhead (hfence ▸ hset) id hid
        · apply (htail x hx hset).1 id
          refine (getElem?_put _ _ _ _).mpr (.inr ⟨?_, hid⟩)
          intro w hw
          exact hfence (fenceEntry_eq_some.mp hw).2.1
      · intro y hy hfence
        rcases List.mem_cons.mp hy with heq | hy
        · rw [heq] at hfence ⊢
          exact hagree x hx hset hfence
        · exact (htail x hx hset).2 y hy hfence

/-- The first loop leaves the report clean when every record is sound and tokens are not shared. -/
theorem clean_auditAssignment (es : List (AssignmentId × AssignmentRecord)) (t : Tallies) :
    (es.foldl s.auditAssignment (report, t)).1.clean = true ↔
      report.clean = true ∧ (∀ e ∈ es, s.Sound e.1 e.2) ∧ Unshared t.fences (es.map Prod.snd) := by
  induction es generalizing report t with
  | nil => simp [Unshared]
  | cons e es ih =>
    rw [List.foldl_cons, auditAssignment, ih, clean_checkTarget, clean_checkFence,
      clean_checkIdentity, clean_count, List.map_cons, unshared_cons, List.forall_mem_cons,
      tally_eq]
    constructor
    · rintro ⟨⟨⟨⟨hclean, hnamed, hscope⟩, hhead, hpast⟩, htarget⟩, hsound, htail⟩
      exact ⟨hclean, ⟨⟨hnamed, hscope, hpast, htarget⟩, hsound⟩, hhead, htail⟩
    · rintro ⟨hclean, ⟨⟨hnamed, hscope, hpast, htarget⟩, hsound⟩, hhead, htail⟩
      exact ⟨⟨⟨⟨hclean, hnamed, hscope⟩, hhead, hpast⟩, htarget⟩, hsound, htail⟩

/-! ## The claims -/

/-- A sorted list from the first item that fails a test on: any item that fails it is there, and
the first one is no later. -/
private theorem dropWhile_of_mem {α : Type} {R : α → α → Prop} {p : α → Bool} {x : α} {xs : List α}
    (hsorted : xs.Pairwise R) (hx : x ∈ xs) (hp : ¬ p x = true) :
    ∃ y ys, xs.dropWhile p = y :: ys ∧ ¬ p y = true ∧ (y = x ∨ R y x) := by
  induction xs with
  | nil => exact absurd hx List.not_mem_nil
  | cons a xs ih =>
    obtain ⟨hfirst, hsorted⟩ := List.pairwise_cons.mp hsorted
    by_cases ha : p a = true
    · rw [List.dropWhile_cons_of_pos ha]
      apply ih hsorted
      rcases List.mem_cons.mp hx with rfl | hx
      · exact absurd ha hp
      · exact hx
    · rw [List.dropWhile_cons_of_neg ha]
      refine ⟨a, xs, rfl, ha, ?_⟩
      rcases List.mem_cons.mp hx with rfl | hx
      · exact .inl rfl
      · exact .inr (hfirst x hx)

/-- The search from the lower bound finds the claims on single classes of the scope. -/
theorem classesOf_eq_nil {t : Tallies} {scope : ScopeId} :
    classesOf t scope = [] ↔ ∀ k ∈ t.classClaims, k.scope ≠ scope := by
  have hcompare : ∀ a b : ExclusivityKey,
      compare a b = (compare a.scope b.scope).then (compare a.cls b.cls) := fun _ _ ↦ rfl
  unfold classesOf
  constructor
  · rintro hnil k hk rfl
    obtain ⟨n, hn⟩ := Option.isSome_iff_exists.mp (Std.ExtTreeMap.mem_iff_isSome_getElem?.mp hk)
    have hmem := Std.ExtTreeMap.mem_toList_iff_getElem?_eq_some.mpr hn
    -- the first class is the least, so the claim itself is not below the bound
    have hlow : ¬ compare k ⟨k.scope, .routeLookup⟩ = .lt := by
      have hleast : ∀ c : FunctionClass, ¬ compare c .routeLookup = .lt := by
        intro c
        cases c <;> decide
      rw [hcompare, Std.ReflOrd.compare_self]
      exact hleast k.cls
    obtain ⟨y, ys, hdrop, hy, hle⟩ := dropWhile_of_mem t.classClaims.ordered_keys_toList hmem
      (p := fun e ↦ compare e.1 ⟨k.scope, .routeLookup⟩ = .lt)
      (by rw [decide_eq_true_eq]; exact hlow)
    have hscope : y.1.scope = k.scope := by
      rcases hle with rfl | hlt
      · rfl
      · rw [decide_eq_true_eq, hcompare] at hy
        rw [hcompare] at hlt
        apply Std.LawfulEqOrd.eq_of_compare
        cases hc : compare y.1.scope k.scope with
        | lt => simp [hc] at hy
        | eq => rfl
        | gt => simp [hc] at hlt
    simp [hdrop, hscope] at hnil
  · intro hnone
    rw [List.eq_nil_iff_forall_not_mem]
    intro e he
    have htaken := List.mem_takeWhile_imp he
    have hscope : e.1.scope = scope := of_decide_eq_true htaken
    have hmem := (List.dropWhile_sublist _).mem ((List.takeWhile_sublist _).mem he)
    have hfound := Std.ExtTreeMap.mem_toList_iff_getElem?_eq_some.mp hmem
    refine hnone e.1 ?_ hscope
    rw [Std.ExtTreeMap.mem_iff_isSome_getElem?, hfound]
    rfl

/-- What is checked of the tallied claims. -/
theorem clean_checkClaims {t : Tallies} :
    (checkClaims t report).clean = true ↔
      report.clean = true ∧ (∀ e ∈ t.wholeScopeClaims.toList, ¬ 1 < e.2) ∧
        (∀ e ∈ t.classClaims.toList, ¬ 1 < e.2) ∧
          ∀ scope ∈ t.wholeScopeClaims, ∀ k ∈ t.classClaims, k.scope ≠ scope := by
  have hmix : ∀ (report : InvariantReport) (e : ScopeId × Nat),
      ((classesOf t e.1).foldl (fun report _ ↦ report.addViolation "exclusive_key_mode_mix"
        "a whole-scope claim overlaps a per-class claim on the same scope") report).clean = true ↔
        report.clean = true ∧ classesOf t e.1 = [] := by
    intro report e
    have hnone : ∀ (report : InvariantReport) (k : ExclusivityKey × Nat),
        (report.addViolation "exclusive_key_mode_mix"
          "a whole-scope claim overlaps a per-class claim on the same scope").clean = true ↔
          report.clean = true ∧ False := by
      intro report k
      simp
    rw [clean_foldl hnone, List.eq_nil_iff_forall_not_mem]
  unfold checkClaims
  rw [clean_foldl hmix, clean_foldl_flag, clean_foldl_flag, and_assoc, and_assoc]
  simp only [classesOf_eq_nil]
  rw [forall_keys (P := fun scope : ScopeId ↦ ∀ k ∈ t.classClaims, k.scope ≠ scope)]

/-! ## The indexes and the accounting -/

/-- An index entry names an assignment that holds authority. -/
def NamesHolder (s : AuditedState) (id : AssignmentId) : Prop :=
  ∃ r, s.assignments[id]? = some r ∧ r.state.holdsAuthority = true

theorem clean_checkIndexed {unknown unheld : String} {holder : AssignmentId} :
    (s.checkIndexed unknown unheld report holder).clean = true ↔
      report.clean = true ∧ s.NamesHolder holder := by
  unfold checkIndexed NamesHolder
  cases s.assignments[holder]? with
  | none => simp
  | some r => simp

/-- The loop over an index. -/
theorem clean_foldl_indexed {κ : Type} (unknown unheld : String) (es : List (κ × AssignmentId)) :
    (es.foldl (fun report e ↦ s.checkIndexed unknown unheld report e.2) report).clean = true ↔
      report.clean = true ∧ ∀ e ∈ es, s.NamesHolder e.2 := by
  apply clean_foldl
  intro report e
  exact clean_checkIndexed

theorem clean_checkIndexes :
    (s.checkIndexes report).clean = true ↔
      report.clean = true ∧
        (∀ (k : ScopeId) id, s.exclusiveByScope[k]? = some id → s.NamesHolder id) ∧
          ∀ (k : ExclusivityKey) id, s.exclusiveByClass[k]? = some id → s.NamesHolder id := by
  unfold checkIndexes
  rw [clean_foldl_indexed, clean_foldl_indexed, and_assoc]
  rw [forall_entries (P := fun (_ : ScopeId) id ↦ s.NamesHolder id),
    forall_entries (P := fun (_ : ExclusivityKey) id ↦ s.NamesHolder id)]

theorem clean_checkCommitted {t : Tallies} :
    (s.checkCommitted t report).clean = true ↔
      report.clean = true ∧
        (∀ (d : DeviceId) v, s.committed[d]? = some v → t.recomputed[d]?.getD {} = v) ∧
          ∀ (d : DeviceId) v, t.recomputed[d]? = some v → s.committed[d]? = some v := by
  unfold checkCommitted
  rw [clean_foldl_count, clean_foldl_count, and_assoc]
  simp only [not_not, ne_eq]
  rw [forall_entries (P := fun (d : DeviceId) v ↦ t.recomputed[d]?.getD {} = v),
    forall_entries (P := fun (d : DeviceId) v ↦ s.committed[d]? = some v)]

theorem clean_checkEvidence {t : Tallies} :
    (s.checkEvidence t report).clean = true ↔
      report.clean = true ∧
        (∀ (k : SourceKey) e, s.sources[k]? = some e → e.restartFloor ≤ e.lastSequence) ∧
          ∀ (id : AuthorityId) g, s.authority[id]? = some g →
            t.grantUses[id]?.getD 0 ≤ g.used.toNat := by
  unfold checkEvidence
  rw [clean_foldl_count, clean_foldl_count, and_assoc]
  simp only [UInt64.not_lt, Nat.not_lt]
  rw [forall_entries (P := fun (_ : SourceKey) (e : SourceState) ↦ e.restartFloor ≤ e.lastSequence),
    forall_entries (P := fun (id : AuthorityId) (g : AuthorityGrant) ↦
      t.grantUses[id]?.getD 0 ≤ g.used.toNat)]

/-! ## The report -/

/-- The conditions that the collector checks. -/
structure Passes (s : AuditedState) (bounds : Bounds) : Prop where
  sound : ∀ (id : AssignmentId) r, s.assignments[id]? = some r → s.Sound id r
  fences : ∀ r ∈ s.records, ∀ r' ∈ s.records, r.fence.isSet → r'.fence = r.fence → r'.id = r.id
  whole : ∀ scope, (s.records.countP fun r ↦ r.wholeKey = some scope) ≤ 1
  single : ∀ k, (s.records.countP fun r ↦ r.classKey = some k) ≤ 1
  apart : ∀ r ∈ s.records, ∀ r' ∈ s.records, ∀ scope k,
    r.wholeKey = some scope → r'.classKey = some k → k.scope ≠ scope
  byScope : ∀ (k : ScopeId) id, s.exclusiveByScope[k]? = some id → s.NamesHolder id
  byClass : ∀ (k : ExclusivityKey) id, s.exclusiveByClass[k]? = some id → s.NamesHolder id
  committed : ∀ d : DeviceId, s.committed[d]?.getD {} = s.demandOn d
  tracked : ∀ r ∈ s.records, ∀ d, r.heldDevice = some d → d ∈ s.committed
  floors : ∀ (k : SourceKey) e, s.sources[k]? = some e → e.restartFloor ≤ e.lastSequence
  used : ∀ (id : AuthorityId) g, s.authority[id]? = some g → s.uses id ≤ g.used.toNat
  assignments : s.assignments.size ≤ bounds.maxAssignments.toNat
  scopes : s.scopeSpecs.size ≤ bounds.maxScopes.toNat

/-- The accounting agrees both ways with what is recomputed when each device's demand does and no
device with a holder is missing. -/
theorem committed_iff :
    ((∀ (d : DeviceId) v, s.committed[d]? = some v → s.tallied.recomputed[d]?.getD {} = v) ∧
      ∀ (d : DeviceId) v, s.tallied.recomputed[d]? = some v → s.committed[d]? = some v) ↔
        (∀ d : DeviceId, s.committed[d]?.getD {} = s.demandOn d) ∧
          ∀ r ∈ s.records, ∀ d, r.heldDevice = some d → d ∈ s.committed := by
  have hdemand : ∀ d : DeviceId, s.tallied.recomputed[d]?.getD {} = s.demandOn d := by
    intro d
    rw [tallied_recomputed, getD_foldl_gather]
    rfl
  have hmem : ∀ d, d ∈ s.tallied.recomputed ↔ ∃ r ∈ s.records, r.heldDevice = some d := by
    intro d
    rw [tallied_recomputed, mem_foldl_gather]
    simp
  simp only [Std.ExtTreeMap.mem_iff_isSome_getElem?] at hmem ⊢
  constructor
  · rintro ⟨hcommitted, htracked⟩
    constructor
    · intro d
      rw [← hdemand]
      cases hd : s.committed[d]? with
      | some v => exact (hcommitted d v hd).symm
      | none =>
        cases hr : s.tallied.recomputed[d]? with
        | none => rfl
        | some v => exact absurd (hd.symm.trans (htracked d v hr)) (by simp)
    · intro r hr d hheld
      obtain ⟨v, hv⟩ := Option.isSome_iff_exists.mp ((hmem d).mpr ⟨r, hr, hheld⟩)
      rw [htracked d v hv]
      rfl
  · rintro ⟨hcommitted, htracked⟩
    constructor
    · intro d v hv
      rw [hdemand, ← hcommitted, hv]
      rfl
    · intro d v hv
      obtain ⟨r, hr, hheld⟩ := (hmem d).mp (by rw [hv]; rfl)
      obtain ⟨w, hw⟩ := Option.isSome_iff_exists.mp (htracked r hr d hheld)
      have hdw := hcommitted d
      rw [← hdemand, hv, hw] at hdw
      rw [hw]
      exact congrArg some hdw

theorem unshared_empty {rs : List AssignmentRecord} :
    Unshared ∅ rs ↔
      ∀ r ∈ rs, ∀ r' ∈ rs, r.fence.isSet → r'.fence = r.fence → r'.id = r.id := by
  unfold Unshared
  simp only [Std.ExtTreeMap.getElem?_empty, reduceCtorEq, false_implies, implies_true, true_and]
  constructor
  · intro h r hr r' hr' hset
    exact h r hr hset r' hr'
  · intro h r hr hset r' hr'
    exact h r hr r' hr' hset

/-- **The report is clean** exactly when the state passes every check. -/
theorem collectInvariants_clean {bounds : Bounds} :
    (s.collectInvariants bounds).clean = true ↔ s.Passes bounds := by
  have htallies := auditAssignment_tallies s.assignments.toList (s := s) ({}, {})
  have hfirst := @clean_auditAssignment s {} s.assignments.toList {}
  unfold collectInvariants
  generalize s.assignments.toList.foldl s.auditAssignment ({}, {}) = a at htallies hfirst ⊢
  obtain ⟨report, t⟩ := a
  obtain rfl : t = s.tallied := htallies
  rw [clean_flag, clean_flag, clean_checkEvidence, clean_checkCommitted, clean_checkIndexes,
    clean_checkClaims, hfirst, unshared_empty, committed_iff,
    forall_entries (P := fun (id : AssignmentId) r ↦ s.Sound id r), tallied_wholeScopeClaims,
    counts_le_one, tallied_classClaims, counts_le_one, ← tallied_wholeScopeClaims,
    ← tallied_classClaims]
  simp only [mem_wholeScopeClaims, mem_classClaims, getD_grantUses, Nat.not_lt, forall_exists_index,
    and_imp]
  constructor
  · rintro ⟨⟨⟨⟨⟨⟨⟨-, hsound, hfences⟩, hwhole, hsingle, hapart⟩, hscope, hclass⟩, hcommitted,
      htracked⟩, hfloors, hused⟩, hassignments⟩, hscopes⟩
    exact ⟨hsound, hfences, hwhole, hsingle,
      fun r hr r' hr' scope k hscope hk ↦ hapart scope r hr hscope k r' hr' hk, hscope, hclass,
      hcommitted, htracked, hfloors, hused, hassignments, hscopes⟩
  · intro h
    exact ⟨⟨⟨⟨⟨⟨⟨trivial, h.sound, h.fences⟩, h.whole, h.single,
      fun scope r hr hscope k r' hr' hk ↦ h.apart r hr r' hr' scope k hscope hk⟩, h.byScope,
      h.byClass⟩, h.committed, h.tracked⟩, h.floors, h.used⟩, h.assignments⟩, h.scopes⟩

end AuditedState

end OffloadFabric
