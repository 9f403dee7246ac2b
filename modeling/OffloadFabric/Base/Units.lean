import OffloadFabric.Base.Ids

/-!
# Typed quantities and time

Demand and capacity vectors of `include/nof/units.hpp:84-156` and the freshness intervals of
`include/nof/time.hpp:62-76`. The five components share one representation, so a component is
named by an index type and the vector functions act on each alike.
-/

namespace OffloadFabric

/-- The components of a demand or capacity vector, `include/nof/units.hpp:85-89`. -/
inductive Component where
  | packetsPerSecond | bytesPerSecond | flows | queues | memory
  deriving DecidableEq, Repr

/-- `DemandVector`, `include/nof/units.hpp:91-104`. -/
structure DemandVector where
  packetsPerSecond : UInt64 := 0
  bytesPerSecond : UInt64 := 0
  flows : UInt64 := 0
  queues : UInt64 := 0
  memory : UInt64 := 0
  deriving DecidableEq, Repr

namespace DemandVector

/-- The component of a vector with the given name. -/
def get (v : DemandVector) : Component → UInt64
  | .packetsPerSecond => v.packetsPerSecond
  | .bytesPerSecond => v.bytesPerSecond
  | .flows => v.flows
  | .queues => v.queues
  | .memory => v.memory

/-- The vector whose components a function gives. -/
def ofFn (f : Component → UInt64) : DemandVector :=
  ⟨f .packetsPerSecond, f .bytesPerSecond, f .flows, f .queues, f .memory⟩

@[simp] theorem get_ofFn (f : Component → UInt64) (c : Component) : (ofFn f).get c = f c := by
  cases c <;> rfl

@[simp] theorem get_default (c : Component) : ({} : DemandVector).get c = 0 := by
  cases c <;> rfl

theorem ext_get {v w : DemandVector} (h : ∀ c, v.get c = w.get c) : v = w := by
  cases v
  cases w
  simp only [mk.injEq]
  exact ⟨h .packetsPerSecond, h .bytesPerSecond, h .flows, h .queues, h .memory⟩

end DemandVector

/-- `CapacityVector`, `include/nof/units.hpp:107-120`: the same five components. -/
structure CapacityVector extends DemandVector
  deriving DecidableEq, Repr

/-- `capacity_admits`, `include/nof/units.hpp:124-146`; the projected sum is not used by callers. -/
def capacityAdmits (capacity : CapacityVector) (committed demand : DemandVector) : Bool :=
  [Component.packetsPerSecond, .bytesPerSecond, .flows, .queues, .memory].all fun c ↦
    match checkedAdd (committed.get c) (demand.get c) with
    | none => false
    | some sum => sum ≤ capacity.get c

/-- Admission bounds every component of the projected sum by the capacity. -/
theorem capacityAdmits_iff {capacity : CapacityVector} {committed demand : DemandVector} :
    capacityAdmits capacity committed demand = true ↔
      ∀ c, ∃ sum, checkedAdd (committed.get c) (demand.get c) = some sum ∧
        sum ≤ capacity.get c := by
  have one : ∀ c, (match checkedAdd (committed.get c) (demand.get c) with
      | none => false
      | some sum => decide (sum ≤ capacity.get c)) = true ↔
      ∃ sum, checkedAdd (committed.get c) (demand.get c) = some sum ∧
        sum ≤ capacity.get c := by
    intro c
    cases checkedAdd (committed.get c) (demand.get c) <;> simp
  simp only [capacityAdmits, List.all_cons, List.all_nil, Bool.and_true, Bool.and_eq_true, one]
  constructor
  · intro ⟨h1, h2, h3, h4, h5⟩ c
    cases c with
    | packetsPerSecond => exact h1
    | bytesPerSecond => exact h2
    | flows => exact h3
    | queues => exact h4
    | memory => exact h5
  · intro h
    exact ⟨h _, h _, h _, h _, h _⟩

/-- `Micros`, `include/nof/units.hpp:79`: logical time in microseconds. -/
abbrev Micros := Int64

/-- `Freshness`, `include/nof/time.hpp:64-76`. -/
structure Freshness where
  observedAt : Micros := 0
  validUntil : Micros := 0
  deriving DecidableEq

namespace Freshness

/-- `Freshness::is_set`, `include/nof/time.hpp:68`. -/
def isSet (f : Freshness) : Prop := f.observedAt ≠ 0 ∧ 0 < f.validUntil

instance (f : Freshness) : Decidable f.isSet :=
  inferInstanceAs (Decidable (f.observedAt ≠ 0 ∧ 0 < f.validUntil))

/-- `Freshness::is_expired`, `include/nof/time.hpp:70-72`. -/
def isExpired (f : Freshness) (now : Micros) : Prop := ¬ f.isSet ∨ f.validUntil ≤ now

instance (f : Freshness) (now : Micros) : Decidable (f.isExpired now) :=
  inferInstanceAs (Decidable (¬ f.isSet ∨ f.validUntil ≤ now))

end Freshness

end OffloadFabric
