import OffloadFabric.Fabric.Indexes
import OffloadFabric.Lib.Gather

/-!
# The invariant collector

`collect_invariants` (`src/export.cpp:589-754`) reads any value of the state, so its maps are taken
as they are here: a record may stand under a key that is not its own. A runtime's own state, whose
tables key every record by itself, is one such value.
-/

namespace OffloadFabric

open Lib

/-- `InvariantViolation`, `include/nof/fabric.hpp:180-183`. -/
structure InvariantViolation where
  invariant : String
  detail : String
  deriving DecidableEq

/-- `InvariantReport`, `include/nof/fabric.hpp:185-191`. -/
structure InvariantReport where
  clean : Bool := true
  checked : Nat := 0
  violations : List InvariantViolation := []
  deriving DecidableEq

namespace InvariantReport

/-- `add_violation`, `src/export.cpp:579-585`. -/
def addViolation (report : InvariantReport) (invariant detail : String) : InvariantReport :=
  { report with clean := false, violations := report.violations ++ [⟨invariant, detail⟩] }

/-- A violation added where a condition holds. -/
def flag (report : InvariantReport) (broken : Prop) [Decidable broken]
    (invariant detail : String) : InvariantReport :=
  if broken then report.addViolation invariant detail else report

/-- One more entry looked at. -/
def count (report : InvariantReport) : InvariantReport :=
  { report with checked := report.checked + 1 }

variable {report : InvariantReport}

@[simp] theorem clean_addViolation (invariant detail : String) :
    (report.addViolation invariant detail).clean = false := rfl

@[simp] theorem clean_count : report.count.clean = report.clean := rfl

@[simp] theorem clean_flag {broken : Prop} [Decidable broken] {invariant detail : String} :
    (report.flag broken invariant detail).clean = true ↔ report.clean = true ∧ ¬ broken := by
  unfold flag
  split
  · next h => simp [h]
  · next h => simp [h]

/-- A loop leaves the report clean when each of its rounds does. -/
theorem clean_foldl {α : Type} {step : InvariantReport → α → InvariantReport} {sound : α → Prop}
    (h : ∀ report x, (step report x).clean = true ↔ report.clean = true ∧ sound x) (xs : List α) :
    (xs.foldl step report).clean = true ↔ report.clean = true ∧ ∀ x ∈ xs, sound x := by
  induction xs generalizing report with
  | nil => simp
  | cons x xs ih => rw [List.foldl_cons, ih, h, List.forall_mem_cons, and_assoc]

/-- A loop that only adds a violation where a condition holds. -/
theorem clean_foldl_flag {α : Type} (broken : α → Prop) [DecidablePred broken]
    (invariant detail : String) (xs : List α) :
    (xs.foldl (fun report x ↦ report.flag (broken x) invariant detail) report).clean = true ↔
      report.clean = true ∧ ∀ x ∈ xs, ¬ broken x := by
  apply clean_foldl
  intro report x
  rw [clean_flag]

/-- A loop that counts its entries and adds a violation where a condition holds. -/
theorem clean_foldl_count {α : Type} (broken : α → Prop) [DecidablePred broken]
    (invariant detail : String) (xs : List α) :
    (xs.foldl (fun report x ↦ report.count.flag (broken x) invariant detail) report).clean = true ↔
      report.clean = true ∧ ∀ x ∈ xs, ¬ broken x := by
  apply clean_foldl
  intro report x
  rw [clean_flag, clean_count]

end InvariantReport

/-- What the collector reads of a `FabricState` (`src/detail/fabric_state.hpp:95-127`). -/
structure AuditedState where
  epoch : CoordinatorEpoch := ⟨0, .empty⟩
  topology : Option TopologySnapshot := none
  authority : Std.ExtTreeMap AuthorityId AuthorityGrant := ∅
  assignments : Std.ExtTreeMap AssignmentId AssignmentRecord := ∅
  exclusiveByClass : Std.ExtTreeMap ExclusivityKey AssignmentId := ∅
  exclusiveByScope : Std.ExtTreeMap ScopeId AssignmentId := ∅
  scopeSpecs : Std.ExtTreeMap ScopeId ScopeSpec := ∅
  committed : Std.ExtTreeMap DeviceId DemandVector := ∅
  sources : Std.ExtTreeMap SourceKey SourceState := ∅

/-- A runtime's state as the collector reads it. -/
def FabricState.audited (s : FabricState) : AuditedState :=
  { s with
    authority := s.authority.map
    assignments := s.assignments.map }

/-- The tallies of the collector's first loop, `src/export.cpp:594-598`. -/
structure Tallies where
  wholeScopeClaims : Std.ExtTreeMap ScopeId Nat := ∅
  classClaims : Std.ExtTreeMap ExclusivityKey Nat := ∅
  recomputed : Std.ExtTreeMap DeviceId DemandVector := ∅
  fences : Std.ExtTreeMap FencingToken AssignmentId := ∅
  grantUses : Std.ExtTreeMap AuthorityId Nat := ∅

namespace AuditedState

/-- The checks of a record's identities, `src/export.cpp:603-617`. -/
def checkIdentity (id : AssignmentId) (r : AssignmentRecord) (report : InvariantReport) :
    InvariantReport :=
  let report := report
    |>.flag (r.id = .empty) "assignment_identity" "assignment carries an empty identifier"
    |>.flag (r.id ≠ id) "assignment_identity" "assignment map key does not match its record"
  if r.scope.kind ≠ .global then
    match r.scope.deriveScopeId with
    | .error _ =>
      report.addViolation "scope_identity" "assignment scope spec does not canonicalize"
    | .ok derived =>
      report.flag (derived ≠ r.scopeId) "scope_identity"
        "scope identifier does not re-derive from the scope specification"
  else report

/-- The checks of a record's token against those before it, `src/export.cpp:618-628`. -/
def checkFence (s : AuditedState) (fences : Std.ExtTreeMap FencingToken AssignmentId)
    (r : AssignmentRecord) (report : InvariantReport) : InvariantReport :=
  if r.fence.isSet then
    report
      |>.flag (∃ id ∈ fences[r.fence]?, id ≠ r.id) "fence_uniqueness"
        "two assignments carry the same fencing token"
      |>.flag (s.epoch.counter < r.fence.epoch) "fence_epoch"
        "assignment carries a fencing token from the future"
  else report

/-- The check of the device a record holds authority on, `src/export.cpp:658-667`. -/
def checkTarget (s : AuditedState) (r : AssignmentRecord) (report : InvariantReport) :
    InvariantReport :=
  match s.topology with
  | none => report
  | some topology =>
    if r.state.holdsAuthority then
      match topology.findDevice r.device with
      | none =>
        report.addViolation "authority_target_present"
          "an assignment holds authority for an absent target"
      | some device =>
        report.flag (device.incarnation ≠ r.incarnation) "authority_target_incarnation"
          "an assignment holds authority for a stale device incarnation"
    else report

/-- What a record adds to the tallies, `src/export.cpp:624` and `src/export.cpp:629-657`. -/
def tally (t : Tallies) (r : AssignmentRecord) : Tallies where
  wholeScopeClaims :=
    if r.holdsExclusive ∧ r.exclusiveKey = .perScope then
      t.wholeScopeClaims.insert r.scopeId (t.wholeScopeClaims[r.scopeId]?.getD 0 + 1)
    else t.wholeScopeClaims
  classClaims :=
    if r.holdsExclusive ∧ r.exclusiveKey = .perClass then
      t.classClaims.insert r.exclusivityKey (t.classClaims[r.exclusivityKey]?.getD 0 + 1)
    else t.classClaims
  recomputed :=
    if r.state.holdsAuthority then
      -- a component that overflows keeps the zero its output started with
      t.recomputed.insert r.device (.ofFn fun c ↦
        (checkedAdd ((t.recomputed[r.device]?.getD {}).get c) (r.demand.get c)).getD 0)
    else t.recomputed
  fences := if r.fence.isSet then t.fences.insert r.fence r.id else t.fences
  grantUses :=
    if r.state.holdsAuthority ∧ r.authority ≠ .empty then
      t.grantUses.insert r.authority (t.grantUses[r.authority]?.getD 0 + 1)
    else t.grantUses

/-- The first loop, over the assignments, `src/export.cpp:600-668`. -/
def auditAssignment (s : AuditedState) (a : InvariantReport × Tallies)
    (entry : AssignmentId × AssignmentRecord) : InvariantReport × Tallies :=
  (a.1.count |> checkIdentity entry.1 entry.2 |> s.checkFence a.2.fences entry.2
    |> s.checkTarget entry.2, tally a.2 entry.2)

/-- The claims on single classes of a scope, from the lower bound on, `src/export.cpp:686-687`. -/
def classesOf (t : Tallies) (scope : ScopeId) : List (ExclusivityKey × Nat) :=
  (t.classClaims.toList.dropWhile fun e ↦ compare e.1 ⟨scope, .routeLookup⟩ = .lt).takeWhile
    fun e ↦ e.1.scope = scope

/-- The checks of the tallied claims, `src/export.cpp:670-691`. -/
def checkClaims (t : Tallies) (report : InvariantReport) : InvariantReport :=
  let report := t.wholeScopeClaims.toList.foldl (fun report e ↦
    report.flag (1 < e.2) "exclusive_scope_uniqueness"
      "more than one assignment holds exclusive authority over a governed scope") report
  let report := t.classClaims.toList.foldl (fun report e ↦
    report.flag (1 < e.2) "exclusive_class_uniqueness"
      "more than one assignment holds exclusive authority over a scope and class") report
  t.wholeScopeClaims.toList.foldl (fun report e ↦
    (classesOf t e.1).foldl (fun report _ ↦
      report.addViolation "exclusive_key_mode_mix"
        "a whole-scope claim overlaps a per-class claim on the same scope") report) report

/-- The check of an index entry against the record it names, `src/export.cpp:692-713`. -/
def checkIndexed (s : AuditedState) (unknown unheld : String) (report : InvariantReport)
    (holder : AssignmentId) : InvariantReport :=
  match s.assignments[holder]? with
  | none => report.count.addViolation "exclusive_index_consistency" unknown
  | some r => report.count.flag (¬ r.state.holdsAuthority) "exclusive_index_consistency" unheld

/-- The checks of the claim indexes, `src/export.cpp:692-713`. -/
def checkIndexes (s : AuditedState) (report : InvariantReport) : InvariantReport :=
  let report := s.exclusiveByScope.toList.foldl (fun report e ↦
    s.checkIndexed "the exclusivity index references an unknown assignment"
      "the exclusivity index references an assignment without authority" report e.2) report
  s.exclusiveByClass.toList.foldl (fun report e ↦
    s.checkIndexed "the per-class exclusivity index references an unknown assignment"
      "the per-class exclusivity index references an assignment without authority" report e.2)
    report

/-- The checks of the capacity accounting, `src/export.cpp:714-731`. -/
def checkCommitted (s : AuditedState) (t : Tallies) (report : InvariantReport) :
    InvariantReport :=
  let report := s.committed.toList.foldl (fun report e ↦
    report.count.flag (t.recomputed[e.1]?.getD {} ≠ e.2) "capacity_accounting"
      "device capacity accounting does not match the live assignments") report
  t.recomputed.toList.foldl (fun report e ↦
    report.count.flag (s.committed[e.1]? ≠ some e.2) "capacity_accounting"
      "a device with live demand is missing from capacity accounting") report

/-- The checks of the evidence floors and of the uses of grants, `src/export.cpp:732-746`. -/
def checkEvidence (s : AuditedState) (t : Tallies) (report : InvariantReport) :
    InvariantReport :=
  let report := s.sources.toList.foldl (fun report e ↦
    report.count.flag (e.2.lastSequence < e.2.restartFloor) "evidence_floor"
      "the restart floor exceeds the last accepted evidence sequence") report
  s.authority.toList.foldl (fun report e ↦
    report.count.flag (e.2.used.toNat < t.grantUses[e.1]?.getD 0) "authority_usage"
      "authority use counter is below the number of live assignments using it") report

/-- `collect_invariants`, `src/export.cpp:589-754`. -/
def collectInvariants (s : AuditedState) (bounds : Bounds) : InvariantReport :=
  let (report, tallies) := s.assignments.toList.foldl s.auditAssignment ({}, {})
  report |> checkClaims tallies |> s.checkIndexes |> s.checkCommitted tallies
    |> s.checkEvidence tallies
    |>.flag (bounds.maxAssignments.toNat < s.assignments.size) "bounds"
      "assignment count exceeds the configured bound"
    |>.flag (bounds.maxScopes.toNat < s.scopeSpecs.size) "bounds"
      "scope count exceeds the configured bound"

end AuditedState

/-- `Fabric::verify_invariants`, `src/fabric.cpp:4350-4362`: the collection itself never fails. -/
def FabricState.verifyInvariants (s : FabricState) (bounds : Bounds) : InvariantReport :=
  s.audited.collectInvariants bounds

end OffloadFabric
