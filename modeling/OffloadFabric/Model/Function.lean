import OffloadFabric.Base.Units
import OffloadFabric.Lib.Codec
import Mathlib.Data.List.Chain

/-!
# Function identities and required semantics

`include/nof/function.hpp` and `src/function.cpp`: function classes, semantics masks,
semantic versions and the registered function descriptor.
-/

namespace OffloadFabric

open Lib

/-- Each element of a list with its successor, the index pairs of a loop from one. -/
def adjacent {α : Type} (xs : List α) : List (α × α) := xs.zip xs.tail

/-- A list whose neighbours are related by a transitive relation is related throughout. -/
theorem pairwise_of_adjacent {α : Type} {r : α → α → Prop} [IsTrans α r] {xs : List α}
    (h : ∀ p ∈ adjacent xs, r p.1 p.2) : xs.Pairwise r := by
  rw [← List.isChain_iff_pairwise]
  induction xs with
  | nil => exact .nil
  | cons x xs ih =>
    cases xs with
    | nil => exact .singleton x
    | cons y ys =>
      have hfirst : (x, y) ∈ adjacent (x :: y :: ys) := List.mem_cons_self
      exact .cons_cons (h _ hfirst) (ih fun p hp ↦ h p (List.mem_cons_of_mem _ hp))

/-- Neighbours of a list that is related throughout are related. -/
theorem adjacent_of_pairwise {α : Type} {r : α → α → Prop} {xs : List α} (h : xs.Pairwise r) :
    ∀ p ∈ adjacent xs, r p.1 p.2 := by
  induction h with
  | nil => exact fun p hp ↦ absurd hp List.not_mem_nil
  | @cons x xs hx hxs ih =>
    cases xs with
    | nil => exact fun p hp ↦ absurd hp List.not_mem_nil
    | cons y ys =>
      intro p hp
      have hp : p ∈ (x, y) :: adjacent (y :: ys) := hp
      rcases List.mem_cons.mp hp with rfl | hp
      · exact hx y List.mem_cons_self
      · exact ih p hp

/-- `FunctionClass`, `include/nof/function.hpp:17-34`. -/
inductive FunctionClass where
  | routeLookup | accessControl | connectionTracking | encapsulation | loadBalancing
  | cryptoOffload | rateLimiting | timestamping | packetCapture | queueSteering
  | memoryRegistration | checksumOffload | trafficMetering | packetFiltering | headerRewrite
  | replicationMirroring
  deriving DecidableEq, Repr

namespace FunctionClass

/-- The durable number of a class, `include/nof/function.hpp:18-33`. -/
def code : FunctionClass → UInt16
  | .routeLookup => 1
  | .accessControl => 2
  | .connectionTracking => 3
  | .encapsulation => 4
  | .loadBalancing => 5
  | .cryptoOffload => 6
  | .rateLimiting => 7
  | .timestamping => 8
  | .packetCapture => 9
  | .queueSteering => 10
  | .memoryRegistration => 11
  | .checksumOffload => 12
  | .trafficMetering => 13
  | .packetFiltering => 14
  | .headerRewrite => 15
  | .replicationMirroring => 16

/-- The class a raw number names, if `to_string` knows it, `src/function.cpp:52-88`. -/
def ofCode? : UInt16 → Option FunctionClass
  | 1 => some .routeLookup
  | 2 => some .accessControl
  | 3 => some .connectionTracking
  | 4 => some .encapsulation
  | 5 => some .loadBalancing
  | 6 => some .cryptoOffload
  | 7 => some .rateLimiting
  | 8 => some .timestamping
  | 9 => some .packetCapture
  | 10 => some .queueSteering
  | 11 => some .memoryRegistration
  | 12 => some .checksumOffload
  | 13 => some .trafficMetering
  | 14 => some .packetFiltering
  | 15 => some .headerRewrite
  | 16 => some .replicationMirroring
  | _ => none

instance : Coded FunctionClass UInt16 where
  code := code
  ofCode? := ofCode?
  ofCode?_code c := by cases c <;> rfl

theorem code_inj {a b : FunctionClass} (h : a.code = b.code) : a = b := by
  have ha := Coded.ofCode?_code a
  rw [show Coded.code a = Coded.code b from h, Coded.ofCode?_code] at ha
  exact (Option.some.inj ha).symm

/-- Every class number fits in one byte, which is all that a decoder looks at. -/
theorem code_low (c : FunctionClass) : c.code &&& 0xFF = c.code := by
  cases c <;> rfl

instance : Ord FunctionClass := ⟨compareOn code⟩

instance : Std.TransOrd FunctionClass := inferInstanceAs (Std.TransCmp (compareOn code))

instance : Std.LawfulEqOrd FunctionClass where
  eq_of_compare {a b} h := by
    have hc : compare a.code b.code = .eq := h
    exact code_inj (Std.LawfulEqCmp.eq_of_compare hc)

end FunctionClass

/-- `kSemanticCount`, `include/nof/function.hpp:70`. -/
def semanticCount : UInt64 := 26

/-- `SemanticsMask`, `include/nof/function.hpp:78-121`. -/
structure SemanticsMask where
  bits : UInt64 := 0
  deriving DecidableEq, Repr

namespace SemanticsMask

/-- `empty`, `include/nof/function.hpp:89`. -/
def isEmpty (m : SemanticsMask) : Bool := m.bits == 0

/-- `count`, `src/function.cpp:117-125`: the number of set bits. -/
def count (m : SemanticsMask) : Nat :=
  (List.range 64).countP fun i ↦ m.bits.toNat.testBit i

/-- `difference`, `include/nof/function.hpp:96-98`. -/
def difference (m other : SemanticsMask) : SemanticsMask := ⟨m.bits &&& ~~~other.bits⟩

/-- `intersection`, `include/nof/function.hpp:99-101`. -/
def intersection (m other : SemanticsMask) : SemanticsMask := ⟨m.bits &&& other.bits⟩

/-- `unite`, `include/nof/function.hpp:102-104`. -/
def unite (m other : SemanticsMask) : SemanticsMask := ⟨m.bits ||| other.bits⟩

/-- `is_subset_of`, `include/nof/function.hpp:105-107`. -/
def isSubsetOf (m other : SemanticsMask) : Bool := m.bits &&& ~~~other.bits == 0

/-- A union is within a mask exactly when both sides are. -/
theorem unite_isSubsetOf {a b m : SemanticsMask} :
    (a.unite b).isSubsetOf m = true ↔ a.isSubsetOf m = true ∧ b.isSubsetOf m = true := by
  have hdistrib : (a.bits ||| b.bits) &&& ~~~m.bits =
      (a.bits &&& ~~~m.bits) ||| (b.bits &&& ~~~m.bits) := by
    apply UInt64.eq_of_toBitVec_eq
    ext i
    simp [Bool.and_or_distrib_right]
  unfold unite isSubsetOf
  rw [beq_iff_eq, beq_iff_eq, beq_iff_eq, hdistrib, UInt64.or_eq_zero_iff]

/-- A union meets nothing of a mask exactly when neither side does. -/
theorem unite_intersection_isEmpty {a b m : SemanticsMask} :
    ((a.unite b).intersection m).isEmpty = true ↔
      (a.intersection m).isEmpty = true ∧ (b.intersection m).isEmpty = true := by
  have hdistrib : (a.bits ||| b.bits) &&& m.bits = (a.bits &&& m.bits) ||| (b.bits &&& m.bits) := by
    apply UInt64.eq_of_toBitVec_eq
    ext i
    simp [Bool.and_or_distrib_right]
  unfold unite intersection isEmpty
  rw [beq_iff_eq, beq_iff_eq, beq_iff_eq, hdistrib, UInt64.or_eq_zero_iff]

theorem unite_assoc (a b c : SemanticsMask) : (a.unite b).unite c = a.unite (b.unite c) := by
  unfold unite
  rw [UInt64.or_assoc]

theorem empty_unite (m : SemanticsMask) : ({} : SemanticsMask).unite m = m := by
  simp [unite]

theorem empty_isSubsetOf (m : SemanticsMask) : ({} : SemanticsMask).isSubsetOf m = true := by
  simp [isSubsetOf]

end SemanticsMask

/-- `SemanticVersion`, `include/nof/function.hpp:123-132`. -/
structure SemanticVersion where
  major : UInt16 := 0
  minor : UInt16 := 0
  deriving DecidableEq, Repr

instance : LT SemanticVersion :=
  ⟨fun a b ↦ a.major < b.major ∨ (a.major = b.major ∧ a.minor < b.minor)⟩

instance (a b : SemanticVersion) : Decidable (a < b) :=
  inferInstanceAs (Decidable (a.major < b.major ∨ (a.major = b.major ∧ a.minor < b.minor)))

/-- `VersionRange`, `include/nof/function.hpp:135-144`. -/
structure VersionRange where
  minimum : SemanticVersion := {}
  maximum : SemanticVersion := {}
  deriving DecidableEq, Repr

/-- `VersionRange::admits`, `include/nof/function.hpp:139-141`. -/
def VersionRange.admits (r : VersionRange) (v : SemanticVersion) : Bool :=
  !decide (v < r.minimum) && !decide (r.maximum < v)

/-- `FunctionDescriptor`, `include/nof/function.hpp:148-156`. -/
structure FunctionDescriptor where
  id : FunctionId
  cls : FunctionClass
  required : SemanticsMask := {}
  requiredVersion : SemanticVersion := {}
  exclusiveByDefault : Bool := true
  deriving DecidableEq

end OffloadFabric
