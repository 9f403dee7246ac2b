import OffloadFabric.Fabric.AuditChecks
import OffloadFabric.Fabric.Run

/-!
# What a clean report says

`collect_invariants` (`src/export.cpp:589-754`) over any value of the state: what follows from a
clean report, and the defects that none of its checks sees.
-/

namespace OffloadFabric

open Lib Lib.Index

namespace AuditedState

open AssignmentRecord

variable {s : AuditedState} {bounds : Bounds}

/-- Two exclusive claims on one scope exclude each other, unless both are on single classes and
the classes differ. -/
def Conflict (r r' : AssignmentRecord) : Prop :=
  r.scopeId = r'.scopeId ∧
    (r.exclusiveKey = .perScope ∨ r'.exclusiveKey = .perScope ∨ r.cls = r'.cls)

/-- The exact sum of what the holders of authority on a device demand of a component. -/
def demandSum (s : AuditedState) (d : DeviceId) (c : Component) : Nat :=
  ((s.records.filter fun r ↦ r.heldDevice = some d).map fun r ↦ (r.demand.get c).toNat).sum

/-- What a clean report is trusted to say of a state. -/
structure Trustworthy (s : AuditedState) : Prop where
  exclusive : ∀ (id id' : AssignmentId) r r', s.assignments[id]? = some r →
    s.assignments[id']? = some r' → r.holdsExclusive = true → r'.holdsExclusive = true →
      Conflict r r' → id = id'
  byClass : ∀ (k : ExclusivityKey) id, s.exclusiveByClass[k]? = some id ↔
    ∃ r, s.assignments[id]? = some r ∧ r.classKey = some k
  byScope : ∀ (scope : ScopeId) id, s.exclusiveByScope[scope]? = some id ↔
    ∃ r, s.assignments[id]? = some r ∧ r.wholeKey = some scope
  committed : ∀ (d : DeviceId) c, ((s.committed[d]?.getD {}).get c).toNat = s.demandSum d c
  fences : ∀ (id id' : AssignmentId) r r', s.assignments[id]? = some r →
    s.assignments[id']? = some r' → r.fence.isSet → r.fence = r'.fence → id = id'
  used : ∀ (id : AuthorityId) g, s.authority[id]? = some g → g.used.toNat = s.uses id

/-- The defects of a state that no check sees. -/
inductive Unseen (s : AuditedState) : Prop
  /-- An exclusive claim on a class does not stand under its key. -/
  | classMissing (id : AssignmentId) (r : AssignmentRecord) (k : ExclusivityKey) :
    s.assignments[id]? = some r → r.classKey = some k → s.exclusiveByClass[k]? ≠ some id → Unseen s
  /-- A holder stands under a class key that it does not claim. -/
  | classForeign (id : AssignmentId) (r : AssignmentRecord) (k : ExclusivityKey) :
    s.exclusiveByClass[k]? = some id → s.assignments[id]? = some r → r.classKey ≠ some k → Unseen s
  /-- An exclusive claim on a scope does not stand under its key. -/
  | scopeMissing (id : AssignmentId) (r : AssignmentRecord) (scope : ScopeId) :
    s.assignments[id]? = some r → r.wholeKey = some scope → s.exclusiveByScope[scope]? ≠ some id →
      Unseen s
  /-- A holder stands under a scope that it does not claim. -/
  | scopeForeign (id : AssignmentId) (r : AssignmentRecord) (scope : ScopeId) :
    s.exclusiveByScope[scope]? = some id → s.assignments[id]? = some r →
      r.wholeKey ≠ some scope → Unseen s
  /-- The demands on a device have a sum that no counter holds. -/
  | overflow (d : DeviceId) (c : Component) : 2 ^ 64 ≤ s.demandSum d c → Unseen s
  /-- A use counter is above the number of holders that use the grant. -/
  | overcounted (id : AuthorityId) (g : AuthorityGrant) :
    s.authority[id]? = some g → s.uses id < g.used.toNat → Unseen s

/-! ## Sums of demands -/

/-- A sum that fits a counter is what checked additions make of its terms. -/
theorem get_foldl_plus {c : Component} (rs : List AssignmentRecord) (v : DemandVector)
    (h : (v.get c).toNat + (rs.map fun r ↦ (r.demand.get c).toNat).sum < 2 ^ 64) :
    ((rs.foldl .plus v).get c).toNat =
      (v.get c).toNat + (rs.map fun r ↦ (r.demand.get c).toNat).sum := by
  induction rs generalizing v with
  | nil => rfl
  | cons r rs ih =>
    rw [List.map_cons, List.sum_cons] at h ⊢
    have hplus : ((v.plus r).get c).toNat = (v.get c).toNat + (r.demand.get c).toNat := by
      rw [DemandVector.plus, DemandVector.get_ofFn]
      cases hadd : checkedAdd (v.get c) (r.demand.get c) with
      | some sum => exact (checkedAdd_eq_some.mp hadd).2
      | none =>
        have := checkedAdd_eq_none.mp hadd
        omega
    rw [List.foldl_cons, ih _ (by omega), hplus]
    omega

/-- The accounting of a state that passes the checks is exact where no sum overflows. -/
theorem committed_exact_iff (h : s.Passes bounds) (d : DeviceId) (c : Component) :
    ((s.committed[d]?.getD {}).get c).toNat = s.demandSum d c ↔ s.demandSum d c < 2 ^ 64 := by
  rw [h.committed d]
  constructor
  · intro heq
    rw [← heq]
    exact UInt64.toNat_lt _
  · intro hlt
    have hzero : (({} : DemandVector).get c).toNat = 0 := by
      rw [DemandVector.get_default]
      rfl
    rw [demandOn, get_foldl_plus]
    · rw [hzero, Nat.zero_add, demandSum]
    · rw [hzero, Nat.zero_add]
      exact hlt

/-! ## Trust in a clean report -/

theorem mem_records {id : AssignmentId} {r : AssignmentRecord} (h : s.assignments[id]? = some r) :
    r ∈ s.records :=
  List.mem_map.mpr ⟨(id, r), Std.ExtTreeMap.mem_toList_iff_getElem?_eq_some.mpr h, rfl⟩

/-- A key that is counted once has one record. -/
theorem eq_of_countP {α : Type} {p : α → Bool} {xs : List α} (h : xs.countP p ≤ 1) {x y : α}
    (hx : x ∈ xs) (hy : y ∈ xs) (hpx : p x = true) (hpy : p y = true) : x = y := by
  rw [List.countP_eq_length_filter] at h
  have hx' := List.mem_filter.mpr ⟨hx, hpx⟩
  have hy' := List.mem_filter.mpr ⟨hy, hpy⟩
  match hfilter : xs.filter p with
  | [] =>
    rw [hfilter] at hx'
    cases hx'
  | [z] =>
    rw [hfilter, List.mem_singleton] at hx' hy'
    rw [hx', hy']
  | _ :: _ :: _ =>
    rw [hfilter, List.length_cons, List.length_cons] at h
    omega

/-- No two holders conflict in a state that passes the checks. -/
theorem Passes.exclusive (h : s.Passes bounds) {id id' : AssignmentId} {r r' : AssignmentRecord}
    (hr : s.assignments[id]? = some r) (hr' : s.assignments[id']? = some r')
    (hholds : r.holdsExclusive = true) (hholds' : r'.holdsExclusive = true)
    (hconflict : Conflict r r') : id = id' := by
  obtain ⟨hscope, hmode⟩ := hconflict
  have hid : r = r' → id = id' := by
    intro heq
    rw [← (h.sound id r hr).named.2, ← (h.sound id' r' hr').named.2, heq]
  have hmem := mem_records hr
  have hmem' := mem_records hr'
  cases hkey : r.exclusiveKey with
  | perScope =>
    have hwhole : r.wholeKey = some r.scopeId := wholeKey_eq_some.mpr ⟨hholds, hkey, rfl⟩
    cases hkey' : r'.exclusiveKey with
    | perScope =>
      have hwhole' : r'.wholeKey = some r.scopeId :=
        wholeKey_eq_some.mpr ⟨hholds', hkey', hscope.symm⟩
      exact hid (eq_of_countP (h.whole r.scopeId) hmem hmem' (decide_eq_true hwhole)
        (decide_eq_true hwhole'))
    | perClass =>
      have hclass' : r'.classKey = some r'.exclusivityKey :=
        classKey_eq_some.mpr ⟨hholds', hkey', rfl⟩
      exact absurd hscope.symm (h.apart r hmem r' hmem' _ _ hwhole hclass')
  | perClass =>
    have hclass : r.classKey = some r.exclusivityKey := classKey_eq_some.mpr ⟨hholds, hkey, rfl⟩
    cases hkey' : r'.exclusiveKey with
    | perScope =>
      have hwhole' : r'.wholeKey = some r'.scopeId := wholeKey_eq_some.mpr ⟨hholds', hkey', rfl⟩
      exact absurd hscope (h.apart r' hmem' r hmem _ _ hwhole' hclass)
    | perClass =>
      have hcls : r.cls = r'.cls := by
        rcases hmode with hmode | hmode | hmode
        · exact absurd (hkey.symm.trans hmode) (by decide)
        · exact absurd (hkey'.symm.trans hmode) (by decide)
        · exact hmode
      have hclass' : r'.classKey = some r.exclusivityKey := by
        apply classKey_eq_some.mpr
        refine ⟨hholds', hkey', ?_⟩
        rw [exclusivityKey, exclusivityKey, hscope, hcls]
      exact hid (eq_of_countP (h.single r.exclusivityKey) hmem hmem' (decide_eq_true hclass)
        (decide_eq_true hclass'))

/-- A state that passes the checks is as a clean report says when it has no unseen defect. -/
theorem Passes.trustworthy_iff (h : s.Passes bounds) : s.Trustworthy ↔ ¬ s.Unseen := by
  constructor
  · intro htrust hunseen
    cases hunseen with
    | classMissing id r k hr hkey hmissing => exact hmissing ((htrust.byClass k id).mpr ⟨r, hr, hkey⟩)
    | classForeign id r k hentry hr hkey =>
      obtain ⟨w, hw, hclaims⟩ := (htrust.byClass k id).mp hentry
      rw [hr] at hw
      cases hw
      exact hkey hclaims
    | scopeMissing id r scope hr hkey hmissing =>
      exact hmissing ((htrust.byScope scope id).mpr ⟨r, hr, hkey⟩)
    | scopeForeign id r scope hentry hr hkey =>
      obtain ⟨w, hw, hclaims⟩ := (htrust.byScope scope id).mp hentry
      rw [hr] at hw
      cases hw
      exact hkey hclaims
    | overflow d c hover =>
      have := (committed_exact_iff h d c).mp (htrust.committed d c)
      omega
    | overcounted id g hg hmore =>
      have := htrust.used id g hg
      omega
  · intro hnone
    constructor
    · intro id id' r r'
      exact h.exclusive
    · intro k id
      constructor
      · intro hentry
        obtain ⟨r, hr, -⟩ := h.byClass k id hentry
        refine ⟨r, hr, ?_⟩
        by_contra hkey
        exact hnone (.classForeign id r k hentry hr hkey)
      · rintro ⟨r, hr, hkey⟩
        by_contra hmissing
        exact hnone (.classMissing id r k hr hkey hmissing)
    · intro scope id
      constructor
      · intro hentry
        obtain ⟨r, hr, -⟩ := h.byScope scope id hentry
        refine ⟨r, hr, ?_⟩
        by_contra hkey
        exact hnone (.scopeForeign id r scope hentry hr hkey)
      · rintro ⟨r, hr, hkey⟩
        by_contra hmissing
        exact hnone (.scopeMissing id r scope hr hkey hmissing)
    · intro d c
      apply (committed_exact_iff h d c).mpr
      by_contra hover
      exact hnone (.overflow d c (Nat.not_lt.mp hover))
    · intro id id' r r' hr hr' hset hfence
      rw [← (h.sound id r hr).named.2, ← (h.sound id' r' hr').named.2]
      exact (h.fences r (mem_records hr) r' (mem_records hr') hset hfence.symm).symm
    · intro id g hg
      by_contra hne
      have hle := h.used id g hg
      exact hnone (.overcounted id g hg (by omega))

/-- A clean report is to be trusted exactly of the states that fail a check, so that there is no
clean report, and of those that have none of the defects the checks do not see. -/
theorem clean_trustworthy_iff (s : AuditedState) (bounds : Bounds) :
    ((s.collectInvariants bounds).clean = true → s.Trustworthy) ↔
      ¬ s.Passes bounds ∨ ¬ s.Unseen := by
  rw [collectInvariants_clean]
  constructor
  · intro htrust
    by_cases hpasses : s.Passes bounds
    · right
      exact hpasses.trustworthy_iff.mp (htrust hpasses)
    · exact .inl hpasses
  · rintro (hfails | hnone) hpasses
    · exact absurd hpasses hfails
    · exact hpasses.trustworthy_iff.mpr hnone

namespace Unindexed

/-- A grant delivered with a use counter that the assignments do not account for. -/
def grant : AuthorityGrant where
  id := ⟨ascii "grant", .inr (by decide)⟩
  policyGeneration := 1
  classes := []
  kinds := []
  actions := []
  issuedAt := 0
  expiresAt := 0
  provenance := ⟨.empty, 0⟩
  freshness := {}
  used := 5

/-- An exclusive holder of the global scope. -/
def record : AssignmentRecord where
  id := Sample.first
  generation := 1
  function := Sample.function
  cls := .routeLookup
  scope := { kind := .global }
  scopeId := ⟨ascii "scope", .inr (by decide)⟩
  exclusivity := .exclusive
  exclusiveKey := .perScope
  mode := .offloaded
  state := .authorized
  device := Sample.device
  host := Sample.host
  kind := .dpu
  incarnation := ⟨1, .empty⟩
  demand := {}
  binding := {}
  authority := grant.id
  lease := 1
  fence := ⟨1, 1⟩
  attempt := 1
  requestFingerprint := .zero
  provenance := ⟨.empty, 0⟩
  freshness := {}
  stateReason := .ok
  createdAt := 0
  updatedAt := 0
  history := []
  effects := []

/-- A state with that holder and that grant, and nothing in its indexes. -/
def state : FabricState where
  epoch := ⟨1, .empty⟩
  authority := Table.empty.insert grant
  assignments := Table.empty.insert record
  committed := (∅ : Std.ExtTreeMap DeviceId DemandVector).insert record.device {}

end Unindexed

/-- The report of that state is clean, although its holder stands in no index. -/
theorem clean_not_trustworthy :
    ¬ ∀ (s : AuditedState) (bounds : Bounds),
      (s.collectInvariants bounds).clean = true → s.Trustworthy := by
  intro h
  have hclean : (Unindexed.state.verifyInvariants {}).clean = true := by decide
  have hentry := ((h Unindexed.state.audited {} hclean).byScope Unindexed.record.scopeId
    Unindexed.record.id).mpr ⟨Unindexed.record, Table.find?_insert_self .empty Unindexed.record, rfl⟩
  rw [show Unindexed.state.audited.exclusiveByScope = ∅ from rfl, Std.ExtTreeMap.getElem?_empty]
    at hentry
  cases hentry

end AuditedState

namespace FabricState

open AssignmentRecord AuditedState

variable {s : FabricState} {bounds : Bounds}

theorem classEntry_eq_some {r : AssignmentRecord} {k : ExclusivityKey} {id : AssignmentId} :
    r.classEntry = some (k, id) ↔ r.classKey = some k ∧ r.id = id := by
  unfold classEntry classKey
  split
  · simp
  · simp

theorem scopeEntry_eq_some {r : AssignmentRecord} {scope : ScopeId} {id : AssignmentId} :
    r.scopeEntry = some (scope, id) ↔ r.wholeKey = some scope ∧ r.id = id := by
  unfold scopeEntry wholeKey
  split
  · simp
  · simp

/-- An index with the entries of the assignments names the records of its keys. -/
theorem named_iff {κ : Type} [Ord κ] [Std.TransOrd κ] {index : Std.ExtTreeMap κ AssignmentId}
    {entry : AssignmentRecord → Option (κ × AssignmentId)} {slot : AssignmentRecord → Option κ}
    (hindex : Of entry s.assignments.values index)
    (hentry : ∀ {r k id}, entry r = some (k, id) ↔ slot r = some k ∧ r.id = id) (k : κ)
    (id : AssignmentId) :
    index[k]? = some id ↔ ∃ r, s.assignments.find? id = some r ∧ slot r = some k := by
  rw [hindex k id]
  constructor
  · rintro ⟨r, hr, he⟩
    obtain ⟨hslot, rfl⟩ := hentry.mp he
    exact ⟨r, Table.mem_values.mp hr, hslot⟩
  · rintro ⟨r, hr, hslot⟩
    have hid := Table.key_of_find? hr
    exact ⟨r, Table.mem_values_of_find? hr, hentry.mpr ⟨hslot, hid⟩⟩

/-- The counter of a grant recounted is no higher than the number of its users. -/
theorem grantUses_le (id : AuthorityId) : (grantUses s.assignments id).toNat ≤ s.audited.uses id := by
  have huses : s.audited.uses id = s.assignments.values.countP fun r ↦
      r.state.holdsAuthority && r.authority ≠ .empty && r.authority = id := by
    apply List.countP_congr
    intro r _
    unfold usedGrant
    split
    · next h => simp [h]
    · next h =>
      simp only [reduceCtorEq, decide_false, Bool.false_eq_true, Bool.and_eq_true,
        decide_eq_true_eq, false_iff]
      exact fun hr ↦ h hr.1
  rw [huses, grantUses, UInt64.toNat_ofNat']
  exact Nat.mod_le _ _

/-- **A clean report of an indexed state** is to be trusted where no sum of demands overflows. -/
theorem Indexed.trustworthy (h : s.Indexed) (hsums : ∀ d c, s.audited.demandSum d c < 2 ^ 64)
    (hclean : (s.verifyInvariants bounds).clean = true) : s.audited.Trustworthy := by
  have hclass := named_iff h.byClass classEntry_eq_some
  have hscope := named_iff h.byScope scopeEntry_eq_some
  apply (collectInvariants_clean.mp hclean).trustworthy_iff.mpr
  intro hunseen
  cases hunseen with
  | classMissing id r k hr hkey hmissing => exact hmissing ((hclass k id).mpr ⟨r, hr, hkey⟩)
  | classForeign id r k hentry hr hkey =>
    obtain ⟨w, hw, hclaims⟩ := (hclass k id).mp hentry
    cases hw.symm.trans hr
    exact hkey hclaims
  | scopeMissing id r scope hr hkey hmissing => exact hmissing ((hscope scope id).mpr ⟨r, hr, hkey⟩)
  | scopeForeign id r scope hentry hr hkey =>
    obtain ⟨w, hw, hclaims⟩ := (hscope scope id).mp hentry
    cases hw.symm.trans hr
    exact hkey hclaims
  | overflow d c hover =>
    have := hsums d c
    omega
  | overcounted id g hg hmore =>
    have hid : g.id = id := Table.key_of_find? hg
    rw [h.used g (Table.mem_values_of_find? hg), hid] at hmore
    have := s.grantUses_le id
    omega

end FabricState

end OffloadFabric
