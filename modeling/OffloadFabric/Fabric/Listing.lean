import OffloadFabric.Fabric.State

/-!
# Listing

The assignments that match a filter, in the order of their identifiers, a page at a time
(`src/fabric.cpp:4149-4188`).
-/

namespace OffloadFabric

open Lib

/-- The checks of one assignment, `src/fabric.cpp:4157-4173`. -/
def AssignmentFilter.admits (filter : AssignmentFilter) (r : AssignmentRecord) : Bool :=
  decide (filter.function.isSet → r.function = filter.function) &&
  decide (filter.scope.isSet → r.scopeId = filter.scope) &&
  decide (filter.device.isSet → r.device = filter.device) &&
  (!filter.filterByState || r.state == filter.state) &&
  (filter.includeTerminal || filter.filterByState || !r.state.isTerminal)

namespace FabricState

/-- All that a filter admits, `src/fabric.cpp:4154-4175`. -/
def matching (s : FabricState) (filter : AssignmentFilter) : List AssignmentRecord :=
  s.assignments.values.filter filter.admits

/-- `Fabric::list_assignments`, `src/fabric.cpp:4149-4188`: one page, and whether it was cut. -/
def listAssignments (s : FabricState) (filter : AssignmentFilter) (offset limit : Nat) :
    List AssignmentRecord × Bool :=
  let all := s.matching filter
  if offset ≥ all.length then ([], false)
  else
    let available := all.length - offset
    let taken := if available < limit then available else limit
    ((all.drop offset).take taken, decide (taken < available))

variable (s : FabricState) (filter : AssignmentFilter) (offset limit : Nat)

theorem listAssignments_page :
    (s.listAssignments filter offset limit).1 =
      ((s.matching filter).drop offset).take limit := by
  unfold listAssignments
  by_cases hoffset : offset ≥ (s.matching filter).length
  · rw [if_pos hoffset, List.drop_of_length_le hoffset, List.take_nil]
  · rw [if_neg hoffset]
    simp only
    split
    · next hshort =>
      rw [List.take_of_length_le, List.take_of_length_le]
      · rw [List.length_drop]
        omega
      · rw [List.length_drop]
    · rfl

/-- A page is cut when something stands behind it. -/
theorem listAssignments_truncated :
    (s.listAssignments filter offset limit).2 = true ↔
      offset + limit < (s.matching filter).length := by
  unfold listAssignments
  by_cases hoffset : offset ≥ (s.matching filter).length
  · rw [if_pos hoffset]
    simp only [Bool.false_eq_true, false_iff]
    omega
  · rw [if_neg hoffset]
    simp only [decide_eq_true_eq]
    split <;> omega

/-- A page that is not cut ends the list. -/
theorem listAssignments_last (h : (s.listAssignments filter offset limit).2 = false) :
    (s.listAssignments filter offset limit).1 = (s.matching filter).drop offset := by
  have hlast : ¬ offset + limit < (s.matching filter).length := by
    rw [← s.listAssignments_truncated, h]
    exact Bool.false_ne_true
  rw [listAssignments_page, List.take_of_length_le]
  rw [List.length_drop]
  omega

end FabricState

end OffloadFabric
