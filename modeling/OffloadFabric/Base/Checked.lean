import Mathlib.Data.UInt
import Mathlib.Order.Defs.LinearOrder

/-!
# Overflow-checked arithmetic

The unsigned 64-bit instances of `include/nof/checked.hpp:15-92`, the only ones the runtime
core uses. A refusal is `none`; the source leaves its output argument untouched there.
-/

namespace OffloadFabric

instance instLinearOrderUInt64 : LinearOrder UInt64 where
  le_refl := UInt64.le_refl
  le_trans _ _ _ := UInt64.le_trans
  lt_iff_le_not_ge a b := by
    rw [UInt64.lt_iff_toNat_lt, UInt64.le_iff_toNat_le, UInt64.le_iff_toNat_le]
    omega
  le_antisymm _ _ := UInt64.le_antisymm
  le_total := UInt64.le_total
  toDecidableLE := inferInstance
  toDecidableEq := inferInstance
  toDecidableLT := inferInstance

/-- `add_would_overflow<uint64_t>`, `include/nof/checked.hpp:15-26`. -/
def addWouldOverflow (a b : UInt64) : Bool := a > 0xFFFFFFFFFFFFFFFF - b

/-- `sub_would_overflow<uint64_t>`, `include/nof/checked.hpp:28-39`. -/
def subWouldOverflow (a b : UInt64) : Bool := a < b

/-- `mul_would_overflow<uint64_t>`, `include/nof/checked.hpp:41-63`. -/
def mulWouldOverflow (a b : UInt64) : Bool :=
  if a = 0 ∨ b = 0 then false else a > 0xFFFFFFFFFFFFFFFF / b

/-- `checked_add`, `include/nof/checked.hpp:66-73`. -/
def checkedAdd (a b : UInt64) : Option UInt64 :=
  if addWouldOverflow a b then none else some (a + b)

/-- `checked_sub`, `include/nof/checked.hpp:76-83`. -/
def checkedSub (a b : UInt64) : Option UInt64 :=
  if subWouldOverflow a b then none else some (a - b)

/-- `checked_mul`, `include/nof/checked.hpp:85-92`. -/
def checkedMul (a b : UInt64) : Option UInt64 :=
  if mulWouldOverflow a b then none else some (a * b)

/-- A checked addition succeeds exactly when the sum is representable. -/
theorem checkedAdd_eq_some {a b c : UInt64} :
    checkedAdd a b = some c ↔ a.toNat + b.toNat < 2 ^ 64 ∧ c.toNat = a.toNat + b.toNat := by
  have ha := a.toNat_lt
  have hb := b.toNat_lt
  have hover : addWouldOverflow a b = true ↔ 2 ^ 64 ≤ a.toNat + b.toNat := by
    have hsub : (0xFFFFFFFFFFFFFFFF - b : UInt64).toNat = 2 ^ 64 - 1 - b.toNat := by
      rw [UInt64.toNat_sub_of_le]
      · rfl
      · rw [UInt64.le_iff_toNat_le]
        have : (0xFFFFFFFFFFFFFFFF : UInt64).toNat = 2 ^ 64 - 1 := rfl
        omega
    simp only [addWouldOverflow, gt_iff_lt, decide_eq_true_eq, UInt64.lt_iff_toNat_lt, hsub]
    omega
  unfold checkedAdd
  split
  · next h =>
      have := hover.mp h
      constructor
      · intro hc
        cases hc
      · intro ⟨hc, _⟩
        omega
  · next h =>
      have hlt : a.toNat + b.toNat < 2 ^ 64 := by
        by_contra hge
        exact h (hover.mpr (by omega))
      rw [Option.some.injEq, ← UInt64.toNat_inj, UInt64.toNat_add, Nat.mod_eq_of_lt hlt]
      constructor
      · intro hc
        exact ⟨hlt, hc.symm⟩
      · intro ⟨_, hc⟩
        exact hc.symm

/-- A checked addition refuses exactly when the sum is not representable. -/
theorem checkedAdd_eq_none {a b : UInt64} :
    checkedAdd a b = none ↔ 2 ^ 64 ≤ a.toNat + b.toNat := by
  cases h : checkedAdd a b with
  | none =>
      simp only [true_iff]
      by_contra hlt
      have hsum : checkedAdd a b = some (a + b) :=
        checkedAdd_eq_some.mpr ⟨by omega, by rw [UInt64.toNat_add, Nat.mod_eq_of_lt (by omega)]⟩
      rw [h] at hsum
      cases hsum
  | some c =>
      have := (checkedAdd_eq_some.mp h).1
      simp only [reduceCtorEq, false_iff]
      omega

/-- A checked subtraction succeeds exactly when it does not go below zero. -/
theorem checkedSub_eq_some {a b c : UInt64} :
    checkedSub a b = some c ↔ b.toNat ≤ a.toNat ∧ c.toNat = a.toNat - b.toNat := by
  unfold checkedSub subWouldOverflow
  by_cases h : a < b
  · have := UInt64.lt_iff_toNat_lt.mp h
    simp only [h, decide_true, if_true]
    constructor
    · intro hc
      cases hc
    · intro ⟨hc, _⟩
      omega
  · have hle : b.toNat ≤ a.toNat := by
      rw [UInt64.lt_iff_toNat_lt] at h
      omega
    simp only [h, decide_false, Bool.false_eq_true, if_false, Option.some.injEq]
    rw [← UInt64.toNat_inj, UInt64.toNat_sub_of_le _ _ (UInt64.le_iff_toNat_le.mpr hle)]
    constructor
    · intro hc
      exact ⟨hle, hc.symm⟩
    · intro ⟨_, hc⟩
      exact hc.symm

/-- A checked subtraction refuses exactly what goes below zero. -/
theorem checkedSub_eq_none {a b : UInt64} : checkedSub a b = none ↔ a.toNat < b.toNat := by
  unfold checkedSub subWouldOverflow
  rw [← UInt64.lt_iff_toNat_lt]
  by_cases h : a < b
  · simp [h]
  · simp [h]

/-- A product overflows exactly when it is not representable. -/
private theorem mulWouldOverflow_iff {a b : UInt64} :
    mulWouldOverflow a b = true ↔ 2 ^ 64 ≤ a.toNat * b.toNat := by
  unfold mulWouldOverflow
  by_cases hzero : a = 0 ∨ b = 0
  · have hproduct : a.toNat * b.toNat = 0 := by
      rcases hzero with rfl | rfl
      · exact Nat.zero_mul _
      · exact Nat.mul_zero _
    simp [hzero, hproduct]
  · have hb : 0 < b.toNat := by
      rw [Nat.pos_iff_ne_zero, ne_eq, ← UInt64.toNat_zero, UInt64.toNat_inj]
      exact fun h ↦ hzero (.inr h)
    rw [if_neg hzero, decide_eq_true_eq, gt_iff_lt, UInt64.lt_iff_toNat_lt, UInt64.toNat_div,
      Nat.div_lt_iff_lt_mul hb]
    have hmax : (0xFFFFFFFFFFFFFFFF : UInt64).toNat = 2 ^ 64 - 1 := rfl
    omega

/-- A checked multiplication succeeds exactly when the product is representable. -/
theorem checkedMul_eq_some {a b c : UInt64} :
    checkedMul a b = some c ↔ a.toNat * b.toNat < 2 ^ 64 ∧ c.toNat = a.toNat * b.toNat := by
  unfold checkedMul
  by_cases h : mulWouldOverflow a b = true
  · have hlarge := mulWouldOverflow_iff.mp h
    rw [if_pos h]
    simp only [reduceCtorEq, false_iff]
    omega
  · have hlt : a.toNat * b.toNat < 2 ^ 64 := by
      by_contra hge
      exact h (mulWouldOverflow_iff.mpr (by omega))
    rw [if_neg h, Option.some.injEq, ← UInt64.toNat_inj, UInt64.toNat_mul, Nat.mod_eq_of_lt hlt]
    constructor
    · intro hc
      exact ⟨hlt, hc.symm⟩
    · intro ⟨_, hc⟩
      exact hc.symm

/-- A checked multiplication refuses exactly what is not representable. -/
theorem checkedMul_eq_none {a b : UInt64} :
    checkedMul a b = none ↔ 2 ^ 64 ≤ a.toNat * b.toNat := by
  unfold checkedMul
  rw [← mulWouldOverflow_iff]
  by_cases h : mulWouldOverflow a b = true
  · simp [h]
  · simp [h]

end OffloadFabric
