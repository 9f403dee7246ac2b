import OffloadFabric.Fabric.Evidence
import OffloadFabric.Fabric.Placement
import OffloadFabric.Lib.Index

/-!
# Kept and rebuilt indexes

The claim indexes, the scopes and the uses of grants are kept at every store
(`src/fabric.cpp:1628-1727`) and derived from the assignments at a start
(`src/fabric.cpp:922-989`). Here they are read as indexes over the table of assignments, with what
a scope query (`src/fabric.cpp:4190-4229`) makes of them.
-/

namespace OffloadFabric

open Lib Lib.Index

namespace AssignmentRecord

/-- What a record enters into the index of claims on a class, `src/fabric.cpp:1633-1638`. -/
def classEntry (r : AssignmentRecord) : Option (ExclusivityKey × AssignmentId) :=
  if r.holdsExclusive ∧ r.exclusiveKey = .perClass then some (r.exclusivityKey, r.id) else none

/-- What a record enters into the index of claims on a whole scope, `src/fabric.cpp:1639-1640`. -/
def scopeEntry (r : AssignmentRecord) : Option (ScopeId × AssignmentId) :=
  if r.holdsExclusive ∧ r.exclusiveKey = .perScope then some (r.scopeId, r.id) else none

/-- What a live record enters into the index of scopes, `src/fabric.cpp:929-934`. -/
def specEntry (r : AssignmentRecord) : Option (ScopeId × ScopeSpec) :=
  if r.state.isLive ∧ r.scopeId ≠ .empty then some (r.scopeId, r.scope) else none

theorem slotted_classEntry : Slotted classEntry exclusivityKey := by
  intro r k id h
  unfold classEntry at h
  split at h
  · cases h
    exact ⟨rfl, rfl⟩
  · cases h

theorem slotted_scopeEntry : Slotted scopeEntry scopeId := by
  intro r k id h
  unfold scopeEntry at h
  split at h
  · cases h
    exact ⟨rfl, rfl⟩
  · cases h

theorem specEntry_eq_some {r : AssignmentRecord} {scope : ScopeId} {spec : ScopeSpec} :
    r.specEntry = some (scope, spec) ↔
      r.state.isLive = true ∧ scope ≠ .empty ∧ r.scopeId = scope ∧ r.scope = spec := by
  unfold specEntry
  split
  · next h =>
    simp only [Option.some.injEq, Prod.mk.injEq]
    constructor
    · rintro ⟨rfl, rfl⟩
      exact ⟨h.1, h.2, rfl, rfl⟩
    · rintro ⟨-, -, hscope, hspec⟩
      exact ⟨hscope, hspec⟩
  · next h =>
    simp only [reduceCtorEq, false_iff]
    rintro ⟨hlive, hne, rfl, -⟩
    exact h ⟨hlive, hne⟩

/-- Only a live record holds a claim. -/
theorem isLive_of_holdsExclusive {r : AssignmentRecord} (h : r.holdsExclusive = true) :
    r.state.isLive = true := by
  unfold holdsExclusive at h
  exact AssignmentState.isLive_of_holdsAuthority (Bool.and_eq_true_iff.mp h).2

end AssignmentRecord

namespace FabricState

open AssignmentRecord

/-! ## The two ways to an index -/

private theorem put_classEntry (index : Std.ExtTreeMap ExclusivityKey AssignmentId)
    (r : AssignmentRecord) : put classEntry index r =
      if r.holdsExclusive ∧ r.exclusiveKey = .perClass then index.insert r.exclusivityKey r.id
      else index := by
  unfold put classEntry
  split
  · next h =>
    split at h
    · next hclaims =>
      cases h
      rw [if_pos hclaims]
    · cases h
  · next h =>
    split at h
    · cases h
    · next hclaims => rw [if_neg hclaims]

private theorem put_scopeEntry (index : Std.ExtTreeMap ScopeId AssignmentId)
    (r : AssignmentRecord) : put scopeEntry index r =
      if r.holdsExclusive ∧ r.exclusiveKey = .perScope then index.insert r.scopeId r.id
      else index := by
  unfold put scopeEntry
  split
  · next h =>
    split at h
    · next hclaims =>
      cases h
      rw [if_pos hclaims]
    · cases h
  · next h =>
    split at h
    · cases h
    · next hclaims => rw [if_neg hclaims]

/-- A store drops the claim on a class that the overwritten record holds and enters its own. -/
theorem insertAssignment_exclusiveByClass (s : FabricState) (r : AssignmentRecord) :
    (s.insertAssignment r).exclusiveByClass =
      put classEntry (dropOld exclusivityKey s.exclusiveByClass (s.assignments.find? r.id)) r := by
  rw [insertAssignment_eq, put_classEntry]
  unfold releaseExisting
  cases s.assignments.find? r.id <;> rfl

/-- A store drops the claim on a scope that the overwritten record holds and enters its own. -/
theorem insertAssignment_exclusiveByScope (s : FabricState) (r : AssignmentRecord) :
    (s.insertAssignment r).exclusiveByScope =
      put scopeEntry (dropOld scopeId s.exclusiveByScope (s.assignments.find? r.id)) r := by
  rw [insertAssignment_eq, put_scopeEntry]
  unfold releaseExisting
  cases s.assignments.find? r.id <;> rfl

/-- A store enters the scope of its record, whatever the state of the record, and drops none. -/
theorem insertAssignment_scopeSpecs (s : FabricState) (r : AssignmentRecord) :
    (s.insertAssignment r).scopeSpecs =
      if r.scopeId ≠ .empty then s.scopeSpecs.insert r.scopeId r.scope else s.scopeSpecs := by
  rw [insertAssignment_eq]
  unfold releaseExisting
  cases s.assignments.find? r.id <;> rfl

/-- The loop of a rebuilding enters the records one after another. -/
private theorem foldl_rebuildRecord (rs : List AssignmentRecord) (s : FabricState) :
    (rs.foldl rebuildRecord s).exclusiveByClass = rs.foldl (put classEntry) s.exclusiveByClass ∧
      (rs.foldl rebuildRecord s).exclusiveByScope = rs.foldl (put scopeEntry) s.exclusiveByScope ∧
      (rs.foldl rebuildRecord s).scopeSpecs = rs.foldl (put specEntry) s.scopeSpecs := by
  induction rs generalizing s with
  | nil => exact ⟨rfl, rfl, rfl⟩
  | cons r rs ih =>
    obtain ⟨hclass, hscope, hspecs⟩ := ih (rebuildRecord s r)
    simp only [List.foldl_cons]
    rw [hclass, hscope, hspecs, put_classEntry, put_scopeEntry]
    unfold put specEntry rebuildRecord
    by_cases hlive : r.state.isLive = true
    · rw [if_pos hlive]
      refine ⟨rfl, rfl, ?_⟩
      by_cases hne : r.scopeId ≠ .empty
      · rw [if_pos ⟨hlive, hne⟩]
        simp only [acquireClaims, if_pos hne]
        rfl
      · rw [if_neg fun h ↦ hne h.2]
        simp only [acquireClaims, if_neg hne]
        rfl
    · -- a record that is not live holds nothing
      have hholds : ¬ r.holdsExclusive = true := fun h ↦ hlive (isLive_of_holdsExclusive h)
      rw [if_neg hlive, if_neg fun h ↦ hholds h.1, if_neg fun h ↦ hholds h.1,
        if_neg fun h ↦ hlive h.1]
      exact ⟨rfl, rfl, rfl⟩

theorem rebuildIndexes_exclusiveByClass (s : FabricState) :
    s.rebuildIndexes.exclusiveByClass = build classEntry s.assignments.values :=
  (foldl_rebuildRecord _ _).1

theorem rebuildIndexes_exclusiveByScope (s : FabricState) :
    s.rebuildIndexes.exclusiveByScope = build scopeEntry s.assignments.values :=
  (foldl_rebuildRecord _ _).2.1

theorem rebuildIndexes_scopeSpecs (s : FabricState) :
    s.rebuildIndexes.scopeSpecs = build specEntry s.assignments.values :=
  (foldl_rebuildRecord _ _).2.2

/-! ## Indexed states -/

/-- The indexes of a state have the entries of its assignments and no others. -/
structure Indexed (s : FabricState) : Prop where
  byClass : Of classEntry s.assignments.values s.exclusiveByClass
  byScope : Of scopeEntry s.assignments.values s.exclusiveByScope
  specs : Of specEntry s.assignments.values s.scopeSpecs
  used : ∀ g ∈ s.authority.values, g.used = grantUses s.assignments g.id

/-- `Fabric::get_scope`, `src/fabric.cpp:4190-4229`. -/
def getScope (s : FabricState) (scope : ScopeId) : Result ScopeView := do
  let spec ← present s.scopeSpecs[scope]?
    ⟨.notFound, "scope is not known to this coordinator"⟩
  let whole := s.exclusiveByScope[scope]?
  let byClass := (s.exclusiveByClass.toList.filter fun e ↦ e.1.scope = scope).map Prod.snd
  let claims := ((byClass ++ whole.toList).mergeSort fun a b ↦ (compare a b).isLE).eraseReps
  return {
    spec, scope
    live := (s.assignments.values.filter fun r ↦ r.scopeId = scope ∧ r.state.isLive).map (·.id)
    exclusiveClaims := claims
    exclusiveHolder := match whole, claims with
      | some holder, _ => holder
      | none, [holder] => holder
      | none, _ => .empty
    exclusiveHolderIsWholeScope := whole.isSome
    exclusiveHeld := !claims.isEmpty }

/-- A rebuilding leaves the indexes, and what is answered from them. -/
structure RebuildsAlike (s : FabricState) : Prop where
  byClass : s.rebuildIndexes.exclusiveByClass = s.exclusiveByClass
  byScope : s.rebuildIndexes.exclusiveByScope = s.exclusiveByScope
  specs : s.rebuildIndexes.scopeSpecs = s.scopeSpecs
  authority : s.rebuildIndexes.authority = s.authority
  scopes : s.rebuildIndexes.getScope = s.getScope
  conflicts : s.rebuildIndexes.exclusiveConflict = s.exclusiveConflict

/-- **Kept indexes are the rebuilt ones** when they have the entries of the assignments. -/
theorem Indexed.rebuildsAlike {s : FabricState} (h : s.Indexed) : s.RebuildsAlike := by
  have hclass : s.rebuildIndexes.exclusiveByClass = s.exclusiveByClass := by
    rw [rebuildIndexes_exclusiveByClass, h.byClass.build_eq]
  have hscope : s.rebuildIndexes.exclusiveByScope = s.exclusiveByScope := by
    rw [rebuildIndexes_exclusiveByScope, h.byScope.build_eq]
  have hspecs : s.rebuildIndexes.scopeSpecs = s.scopeSpecs := by
    rw [rebuildIndexes_scopeSpecs, h.specs.build_eq]
  refine ⟨hclass, hscope, hspecs, ?_, ?_, ?_⟩
  · rw [rebuildIndexes_eq]
    apply Table.ext
    intro id
    rw [Table.find?_mapValues]
    cases hg : s.authority.find? id with
    | none => rfl
    | some g => rw [Option.map_some, ← h.used g (Table.mem_values_of_find? hg)]
  · funext scope
    unfold getScope
    rw [hclass, hscope, hspecs, rebuildIndexes_assignments]
  · funext scope cls mode replacing
    unfold exclusiveConflict
    rw [hclass, hscope]

end FabricState

end OffloadFabric
