import OffloadFabric.Fabric.StoreInvariant
import OffloadFabric.Lib.SortUnique
import OffloadFabric.Properties.RecoveredIndexes

/-!
# Claims name their holders

The claim indexes are kept beside the assignments, over the stores, the recoveries and the losses
of every run, also where a start stops on its way. What they say of a scope, and with it what
`Fabric::get_scope` answers (`src/fabric.cpp:4190-4229`) and what refuses a placement
(`src/fabric.cpp:1729-1761`), is true of the assignments they name.
-/

namespace OffloadFabric

open Lib FabricState

/-- **Claims name their holders** in every state of every run: the assignment a claim names holds
exclusive authority on what it claims. -/
theorem claims_name_holders (c : FabricConfig) (steps : List Step) : (run c steps).state.Held :=
  storeInvariant_held.run c steps

/-! ## What is answered of a scope -/

/-- An assignment of the state holds exclusive authority on a scope. -/
def FabricState.HoldsOn (s : FabricState) (scope : ScopeId) (id : AssignmentId) : Prop :=
  ∃ r, s.assignments.find? id = some r ∧ r.holdsExclusive = true ∧ r.scopeId = scope

/-- What is answered of a scope is true of the assignments of the state. -/
structure FabricState.Describes (s : FabricState) (scope : ScopeId) (view : ScopeView) :
    Prop where
  live : ∀ id, id ∈ view.live ↔
    ∃ r, s.assignments.find? id = some r ∧ r.scopeId = scope ∧ r.state.isLive = true
  claims : ∀ id ∈ view.exclusiveClaims, s.HoldsOn scope id ∧ id ∈ view.live
  ascending : view.exclusiveClaims.Pairwise (compare · · = .lt)
  holder : view.exclusiveHolder ≠ .empty → view.exclusiveHolder ∈ view.exclusiveClaims
  whole : view.exclusiveHolderIsWholeScope = true →
    ∃ r, s.assignments.find? view.exclusiveHolder = some r ∧ r.ClaimsScope scope
  free : view.exclusiveHeld = false ↔ view.exclusiveClaims = []

/-- A claim on a scope, of the whole scope or of a class on it. -/
private def claimsOn (s : FabricState) (scope : ScopeId) : List AssignmentId :=
  ((s.exclusiveByClass.toList.filter fun e ↦ e.1.scope = scope).map Prod.snd) ++
    s.exclusiveByScope[scope]?.toList

private theorem holdsOn_of_mem_claimsOn {s : FabricState} (h : s.Held) {scope : ScopeId}
    {id : AssignmentId} (hid : id ∈ claimsOn s scope) : s.HoldsOn scope id := by
  rcases List.mem_append.mp hid with hclass | hwhole
  · obtain ⟨⟨k, i⟩, hmem, rfl⟩ := List.mem_map.mp hclass
    obtain ⟨hlist, hscope⟩ := List.mem_filter.mp hmem
    have hclaim := Std.ExtTreeMap.mem_toList_iff_getElem?_eq_some.mp hlist
    obtain ⟨r, hr, hholds, -, hk⟩ := h.byClass k i hclaim
    simp only [decide_eq_true_eq] at hscope
    exact ⟨r, hr, hholds, (congrArg ExclusivityKey.scope hk).trans hscope⟩
  · obtain ⟨r, hr, hholds, -, hscope⟩ := h.byScope scope id (Option.mem_toList.mp hwhole)
    exact ⟨r, hr, hholds, hscope⟩

private theorem mem_live {s : FabricState} {scope : ScopeId} {id : AssignmentId} :
    id ∈ (s.assignments.values.filter fun r ↦ r.scopeId = scope ∧ r.state.isLive).map (·.id) ↔
      ∃ r, s.assignments.find? id = some r ∧ r.scopeId = scope ∧ r.state.isLive = true := by
  simp only [List.mem_map, List.mem_filter, decide_eq_true_eq]
  constructor
  · rintro ⟨r, ⟨hmem, hr⟩, rfl⟩
    exact ⟨r, Table.mem_values.mp hmem, hr⟩
  · rintro ⟨r, hfind, hr⟩
    have hid := s.assignments.key_of_find? hfind
    exact ⟨r, ⟨Table.mem_values_of_find? hfind, hr⟩, hid⟩

/-- Where claims name holders, what is answered of a scope is true. -/
theorem FabricState.Held.describes {s : FabricState} (h : s.Held) {scope : ScopeId}
    {view : ScopeView} (hview : s.getScope scope = .ok view) : s.Describes scope view := by
  unfold getScope at hview
  cases hspec : s.scopeSpecs[scope]? with
  | none =>
    rw [hspec] at hview
    cases hview
  | some spec =>
    rw [hspec] at hview
    have hclaims : ∀ {id}, id ∈ view.exclusiveClaims ↔ id ∈ claimsOn s scope := by
      cases hview
      exact mem_sortUnique
    have hlive : view.live =
        (s.assignments.values.filter fun r ↦ r.scopeId = scope ∧ r.state.isLive).map (·.id) := by
      cases hview
      rfl
    constructor
    · intro id
      rw [hlive]
      exact mem_live
    · intro id hid
      have hholds := holdsOn_of_mem_claimsOn h (hclaims.mp hid)
      obtain ⟨r, hr, hexclusive, hscope⟩ := hholds
      refine ⟨⟨r, hr, hexclusive, hscope⟩, ?_⟩
      rw [hlive]
      exact mem_live.mpr ⟨r, hr, hscope, AssignmentRecord.isLive_of_holdsExclusive hexclusive⟩
    · cases hview
      exact pairwise_sortUnique _
    · intro hne
      cases hwhole : s.exclusiveByScope[scope]? with
      | some holder =>
        have hmem : holder ∈ claimsOn s scope := by
          unfold claimsOn
          rw [hwhole]
          exact List.mem_append_right _ (List.mem_singleton.mpr rfl)
        rw [hclaims]
        rw [hwhole] at hview
        cases hview
        exact hmem
      | none =>
        -- the one claim of a class on the scope is its holder
        rw [hwhole] at hview
        simp only [bind, Except.bind, present, pure, Except.pure, Except.ok.injEq] at hview
        subst hview
        simp only at hne ⊢
        split at hne
        · next heq => cases heq
        · next hone => rw [hone]; exact List.mem_singleton.mpr rfl
        · exact absurd rfl hne
    · intro hiswhole
      cases hwhole : s.exclusiveByScope[scope]? with
      | some holder =>
        rw [hwhole] at hview
        cases hview
        exact h.byScope scope holder hwhole
      | none =>
        rw [hwhole] at hview
        cases hview
        cases hiswhole
    · cases hview
      simp

/-- **What is answered of a scope is true** in every state of every run. -/
theorem scope_view_describes (c : FabricConfig) (steps : List Step) (scope : ScopeId)
    (view : ScopeView) (h : (run c steps).state.getScope scope = .ok view) :
    (run c steps).state.Describes scope view :=
  (storeInvariant_held.run c steps).describes h

/-- The scope of a placement on one host is known. -/
private theorem hostPlaced_getScope :
    (Sample.hostScope.deriveScopeId >>= (run {} Sample.hostPlaced).state.getScope).isOk =
      true := by
  decide +kernel

private theorem eq_ok_of_isOk {ε α : Type} {x : Except ε α} (h : x.isOk = true) :
    ∃ a, x = .ok a := by
  cases x with
  | error e => cases h
  | ok a => exact ⟨a, rfl⟩

/-- What is answered of the scope of a placement on one host. -/
theorem scope_view_describes_hostPlaced : ∃ scope view,
    (run {} Sample.hostPlaced).state.getScope scope = .ok view ∧
      (run {} Sample.hostPlaced).state.Describes scope view := by
  obtain ⟨view, hbind⟩ := eq_ok_of_isOk hostPlaced_getScope
  obtain ⟨scope, -, hview⟩ := bind_eq_ok.mp hbind
  exact ⟨scope, view, hview, scope_view_describes {} _ scope view hview⟩

end OffloadFabric
