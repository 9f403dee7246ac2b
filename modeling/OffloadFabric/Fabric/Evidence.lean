import OffloadFabric.Fabric.Validity
import OffloadFabric.Fabric.Index

/-!
# The evidence a verdict depends on

A verdict on an assignment reads the evidence of a state and nothing of its assignments, its
claims or the uses of its grants, so storing an assignment changes no verdict.
-/

namespace OffloadFabric

open Lib

/-- A grant but for the uses counted against it. -/
def AuthorityGrant.unused (g : AuthorityGrant) : AuthorityGrant := { g with used := 0 }

theorem authorityRecheck_unused (g : AuthorityGrant) (i : Intent) (now : Micros) :
    authorityRecheck g.unused i now = authorityRecheck g i now := rfl

namespace FabricState

/-- Two states with the same evidence, whatever their grants are used for. -/
structure SameEvidence (s t : FabricState) : Prop where
  epoch : t.epoch = s.epoch
  functions : t.functions = s.functions
  observations : t.observations = s.observations
  capabilities : t.capabilities = s.capabilities
  topology : t.topology = s.topology
  policy : t.policy = s.policy
  sources : t.sources = s.sources
  authority : ∀ id, (t.authority.find? id).map AuthorityGrant.unused =
    (s.authority.find? id).map AuthorityGrant.unused

namespace SameEvidence

variable {s t u : FabricState}

theorem refl (s : FabricState) : SameEvidence s s :=
  ⟨rfl, rfl, rfl, rfl, rfl, rfl, rfl, fun _ ↦ rfl⟩

theorem trans (h₁ : SameEvidence s t) (h₂ : SameEvidence t u) : SameEvidence s u where
  epoch := h₂.epoch.trans h₁.epoch
  functions := h₂.functions.trans h₁.functions
  observations := h₂.observations.trans h₁.observations
  capabilities := h₂.capabilities.trans h₁.capabilities
  topology := h₂.topology.trans h₁.topology
  policy := h₂.policy.trans h₁.policy
  sources := h₂.sources.trans h₁.sources
  authority id := (h₂.authority id).trans (h₁.authority id)

/-- Grants found under one identifier on both sides differ only in their uses. -/
private theorem present_grant (h : SameEvidence s t) {α : Type} (id : AuthorityId)
    (k : AuthorityGrant → Except ReasonCode α) (hk : ∀ g, k g.unused = k g) :
    (present (t.authority.find? id) ReasonCode.authorityMissing >>= k) =
      present (s.authority.find? id) .authorityMissing >>= k := by
  have hid := h.authority id
  cases hs : s.authority.find? id with
  | none =>
      rw [hs, Option.map_none, Option.map_eq_none_iff] at hid
      rw [hid]
  | some g =>
      rw [hs, Option.map_some, Option.map_eq_some_iff] at hid
      obtain ⟨g', hg', heq⟩ := hid
      rw [hg']
      change k g' = k g
      rw [← hk g', heq, hk]

/-- States with the same evidence give the same verdict on every assignment. -/
theorem assignmentValidity (h : SameEvidence s t) (r : AssignmentRecord) (now : Micros) :
    t.assignmentValidity r now = s.assignmentValidity r now := by
  have hcurrent : t.evidenceCurrent = s.evidenceCurrent := by
    funext source domain sequence
    unfold evidenceCurrent
    rw [h.sources]
  have htarget : t.targetChecks r now true = s.targetChecks r now true := by
    unfold targetChecks topologyChecks policyChecks capabilityChecks livenessChecks
      lookupCapability
    rw [hcurrent, h.functions, h.observations, h.capabilities, h.topology, h.policy]
  have hgeneration : t.policyGeneration = s.policyGeneration := by
    unfold policyGeneration
    rw [h.policy]
  have hsemantics : t.recheckSemantics r = s.recheckSemantics r := by
    unfold recheckSemantics
    rw [h.functions, h.policy]
  have hgrant : t.grantChecks r now = s.grantChecks r now := by
    unfold grantChecks
    rw [hcurrent, hgeneration, hsemantics]
    split
    · exact h.present_grant r.authority _ fun g ↦ rfl
    · rfl
  unfold FabricState.assignmentValidity bindingChecks
  rw [htarget, hgeneration, hgrant, h.epoch]

end SameEvidence

/-- Storing an assignment touches the assignments, the claims and the uses of grants only. -/
theorem insertAssignment_eq (s : FabricState) (r : AssignmentRecord) :
    s.insertAssignment r =
      { s with
        assignments := s.assignments.insert r
        exclusiveByClass := ((s.releaseExisting r.id).acquireClaims r).exclusiveByClass
        exclusiveByScope := ((s.releaseExisting r.id).acquireClaims r).exclusiveByScope
        scopeSpecs := ((s.releaseExisting r.id).acquireClaims r).scopeSpecs
        committed := ((s.releaseExisting r.id).acquireClaims r).committed
        authority := s.authority.mapValues
          (fun g ↦ { g with used := grantUses (s.assignments.insert r) g.id }) fun _ ↦ rfl } := by
  unfold insertAssignment releaseExisting
  cases s.assignments.find? r.id <;> rfl

@[simp] theorem insertAssignment_assignments (s : FabricState) (r : AssignmentRecord) :
    (s.insertAssignment r).assignments = s.assignments.insert r := by
  rw [insertAssignment_eq]

/-- Storing an assignment leaves the evidence. -/
theorem sameEvidence_insertAssignment (s : FabricState) (r : AssignmentRecord) :
    SameEvidence s (s.insertAssignment r) := by
  rw [insertAssignment_eq]
  refine ⟨rfl, rfl, rfl, rfl, rfl, rfl, rfl, fun id ↦ ?_⟩
  rw [Table.find?_mapValues, Option.map_map]
  rfl

/-- Rebuilding the indexes touches the counters, the claims and the uses of grants only. -/
theorem rebuildIndexes_eq (s : FabricState) :
    s.rebuildIndexes =
      { s with
        nextAssignmentOrdinal := s.rebuildIndexes.nextAssignmentOrdinal
        nextLease := s.rebuildIndexes.nextLease
        nextAttempt := s.rebuildIndexes.nextAttempt
        nextFenceSequence := s.rebuildIndexes.nextFenceSequence
        exclusiveByClass := s.rebuildIndexes.exclusiveByClass
        exclusiveByScope := s.rebuildIndexes.exclusiveByScope
        scopeSpecs := s.rebuildIndexes.scopeSpecs
        committed := s.rebuildIndexes.committed
        authority := s.authority.mapValues
          (fun g ↦ { g with used := grantUses s.assignments g.id }) fun _ ↦ rfl } := by
  have hfold : ∀ (rs : List AssignmentRecord) (t : FabricState),
      rs.foldl rebuildRecord t =
        { t with
          nextAssignmentOrdinal := (rs.foldl rebuildRecord t).nextAssignmentOrdinal
          nextLease := (rs.foldl rebuildRecord t).nextLease
          nextAttempt := (rs.foldl rebuildRecord t).nextAttempt
          nextFenceSequence := (rs.foldl rebuildRecord t).nextFenceSequence
          exclusiveByClass := (rs.foldl rebuildRecord t).exclusiveByClass
          exclusiveByScope := (rs.foldl rebuildRecord t).exclusiveByScope
          scopeSpecs := (rs.foldl rebuildRecord t).scopeSpecs
          committed := (rs.foldl rebuildRecord t).committed } := by
    intro rs
    induction rs with
    | nil => exact fun t ↦ rfl
    | cons r rs ih =>
        intro t
        rw [List.foldl_cons, ih]
        unfold rebuildRecord
        split <;> rfl
  unfold rebuildIndexes refreshAuthorityUsage
  rw [hfold]

@[simp] theorem rebuildIndexes_assignments (s : FabricState) :
    s.rebuildIndexes.assignments = s.assignments := by
  rw [rebuildIndexes_eq]

/-- Recording an answer touches the idempotency store only. -/
theorem recordIdempotency_eq (s : FabricState) (b : Bounds) (id : RequestId)
    (e : IdempotencyEntry) :
    s.recordIdempotency b id e =
      { s with
        idempotencyOrder := (s.recordIdempotency b id e).idempotencyOrder
        idempotency := (s.recordIdempotency b id e).idempotency } := by
  unfold recordIdempotency
  split <;> rfl

@[simp] theorem recordIdempotency_assignments (s : FabricState) (b : Bounds) (id : RequestId)
    (e : IdempotencyEntry) : (s.recordIdempotency b id e).assignments = s.assignments := by
  rw [recordIdempotency_eq]

/-- Recording an answer leaves the evidence. -/
theorem sameEvidence_recordIdempotency (s : FabricState) (b : Bounds) (id : RequestId)
    (e : IdempotencyEntry) : SameEvidence s (s.recordIdempotency b id e) := by
  rw [recordIdempotency_eq]
  exact ⟨rfl, rfl, rfl, rfl, rfl, rfl, rfl, fun _ ↦ rfl⟩

end FabricState

end OffloadFabric
