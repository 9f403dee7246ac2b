import OffloadFabric.Fabric.Placement

/-!
# Utilization

What `utilization_ppm` (`src/fabric.cpp:1041-1058`) makes of the totals of a demand and a
capacity. The totals wrap at 64 bits and a product that overflows counts as a full device, so the
parts per million are those of the exact totals only where neither matters.
-/

namespace OffloadFabric

/-- The exact sum of the components that utilization counts. -/
def DemandVector.total (v : DemandVector) : Nat :=
  v.packetsPerSecond.toNat + v.flows.toNat + v.queues.toNat + v.memory.toNat

/-- No component that utilization counts is smaller in the second vector. -/
structure DemandVector.Within (v w : DemandVector) : Prop where
  packetsPerSecond : v.packetsPerSecond ≤ w.packetsPerSecond
  flows : v.flows ≤ w.flows
  queues : v.queues ≤ w.queues
  memory : v.memory ≤ w.memory

theorem DemandVector.Within.total_le {v w : DemandVector} (h : v.Within w) :
    v.total ≤ w.total := by
  have hpackets := UInt64.le_iff_toNat_le.mp h.packetsPerSecond
  have hflows := UInt64.le_iff_toNat_le.mp h.flows
  have hqueues := UInt64.le_iff_toNat_le.mp h.queues
  have hmemory := UInt64.le_iff_toNat_le.mp h.memory
  unfold total
  omega

/-- Parts per million of a capacity, a device without capacity apart. -/
def partsPerMillion (used capacity : Nat) : Nat := min 1000000 (1000000 * used / capacity)

theorem partsPerMillion_mono {used used' : Nat} (h : used ≤ used') (capacity : Nat) :
    partsPerMillion used capacity ≤ partsPerMillion used' capacity :=
  min_le_min le_rfl (Nat.div_le_div_right (Nat.mul_le_mul_left _ h))

theorem partsPerMillion_of_le {used capacity : Nat} (hcapacity : 0 < capacity)
    (h : capacity ≤ used) : partsPerMillion used capacity = 1000000 := by
  apply min_eq_left
  rw [Nat.le_div_iff_mul_le hcapacity]
  exact Nat.mul_le_mul_left _ h

/-- Only a full device has a million parts. -/
theorem partsPerMillion_lt_iff {used capacity : Nat} (hcapacity : 0 < capacity) :
    partsPerMillion used capacity < 1000000 ↔ used < capacity := by
  constructor
  · intro hlt
    by_contra hge
    rw [partsPerMillion_of_le hcapacity (by omega)] at hlt
    omega
  · intro hlt
    refine lt_of_le_of_lt (min_le_right _ _) ?_
    rw [Nat.div_lt_iff_lt_mul hcapacity]
    omega

/-! ## Totals that wrap -/

/-- The total that the code computes. -/
def wrapped (n : Nat) : Nat := n % 2 ^ 64

/-- Totals of 64 bits stand for a full device: a used device has no capacity, the scaled total
overflows, or the used total reaches the capacity. -/
def ReadsFull (used capacity : Nat) : Prop :=
  capacity = 0 ∧ used ≠ 0 ∨ 2 ^ 64 ≤ used * 1000000 ∨ 0 < capacity ∧ capacity ≤ used

instance (used capacity : Nat) : Decidable (ReadsFull used capacity) :=
  inferInstanceAs (Decidable (_ ∨ _ ∨ _))

private theorem eq_zero_iff_toNat {x : UInt64} : x = 0 ↔ x.toNat = 0 := by
  rw [← UInt64.toNat_zero, UInt64.toNat_inj]

/-- The branches behind the totals of `utilization_ppm`. -/
private theorem toNat_branches (u c : UInt64) :
    (if c = 0 then if u = 0 then 0 else 1000000
      else if u = 0 then 0
      else match checkedMul u 1000000 with
        | none => 1000000
        | some scaled => min (scaled / c) 1000000 : UInt64).toNat =
      if ReadsFull u.toNat c.toNat then 1000000 else 1000000 * u.toNat / c.toNat := by
  have hmillion : (1000000 : UInt64).toNat = 1000000 := rfl
  by_cases hc : c = 0
  · have hc' := eq_zero_iff_toNat.mp hc
    rw [if_pos hc, hc', Nat.div_zero]
    by_cases hu : u = 0
    · have hu' := eq_zero_iff_toNat.mp hu
      rw [if_pos hu, hu', if_neg (by decide)]
      rfl
    · rw [if_neg hu, if_pos (.inl ⟨rfl, mt eq_zero_iff_toNat.mpr hu⟩)]
      rfl
  have hc' : 0 < c.toNat := Nat.pos_of_ne_zero (mt eq_zero_iff_toNat.mpr hc)
  rw [if_neg hc]
  by_cases hu : u = 0
  · have hu' := eq_zero_iff_toNat.mp hu
    rw [if_pos hu, hu', Nat.mul_zero, Nat.zero_div, ite_eq_right_iff.mpr]
    · rfl
    · unfold ReadsFull
      omega
  rw [if_neg hu]
  cases hscaled : checkedMul u 1000000 with
  | none =>
    have hlarge := checkedMul_eq_none.mp hscaled
    rw [if_pos (.inr (.inl hlarge))]
    rfl
  | some scaled =>
    obtain ⟨hlt, heq⟩ := checkedMul_eq_some.mp hscaled
    have hratio : (scaled / c).toNat = 1000000 * u.toNat / c.toNat := by
      rw [UInt64.toNat_div, heq, hmillion, Nat.mul_comm]
    have hfull : c.toNat ≤ u.toNat ↔ 1000000 ≤ 1000000 * u.toNat / c.toNat := by
      rw [Nat.le_div_iff_mul_le hc']
      omega
    rw [hmillion] at hlt
    by_cases hle : c.toNat ≤ u.toNat
    · rw [if_pos (.inr (.inr ⟨hc', hle⟩))]
      have hmin : min (scaled / c) 1000000 = 1000000 := by
        apply min_eq_right
        rw [UInt64.le_iff_toNat_le, hratio, hmillion]
        exact hfull.mp hle
      exact congrArg UInt64.toNat hmin
    · rw [if_neg (by unfold ReadsFull; omega), ← hratio]
      have hmin : min (scaled / c) 1000000 = scaled / c := by
        apply min_eq_left
        rw [UInt64.le_iff_toNat_le, hratio, hmillion]
        have := mt hfull.mpr hle
        omega
      exact congrArg UInt64.toNat hmin

/-- What the code computes of the totals. -/
theorem toNat_utilizationPpm (used : DemandVector) (capacity : CapacityVector) :
    (utilizationPpm used capacity).toNat =
      if ReadsFull (wrapped used.total) (wrapped capacity.total) then 1000000
      else 1000000 * wrapped used.total / wrapped capacity.total := by
  have hwrapped : ∀ v : DemandVector,
      (v.packetsPerSecond + v.flows + v.queues + v.memory).toNat = wrapped v.total := by
    intro v
    unfold wrapped DemandVector.total
    simp only [UInt64.toNat_add, Nat.mod_add_mod]
  rw [← hwrapped, ← hwrapped]
  exact toNat_branches _ _

/-- A utilization is never above a million. -/
theorem utilizationPpm_le (used : DemandVector) (capacity : CapacityVector) :
    (utilizationPpm used capacity).toNat ≤ 1000000 := by
  rw [toNat_utilizationPpm]
  split
  · exact le_rfl
  · next h =>
    unfold ReadsFull at h
    rcases Nat.eq_zero_or_pos (wrapped capacity.total) with hzero | hpos
    · rw [hzero, Nat.div_zero]
      omega
    · rw [Nat.div_le_iff_le_mul_add_pred hpos]
      have hlt : wrapped used.total < wrapped capacity.total := by omega
      have hmul := Nat.mul_le_mul_left 1000000 hlt.le
      rw [Nat.mul_comm (wrapped capacity.total)]
      omega

/-! ## Where utilization is exact -/

/-- The totals do not wrap, and the scaled total fits 64 bits unless the device is full. -/
def Unwrapped (used capacity : Nat) : Prop :=
  used < 2 ^ 64 ∧ capacity < 2 ^ 64 ∧ (1000000 * used < 2 ^ 64 ∨ capacity ≤ used)

/-- The wrapped totals stand for as full a device as the exact ones: both are full, or neither is
and the quotients by the capacities agree. -/
def Coincides (used capacity : Nat) : Prop :=
  if ReadsFull (wrapped used) (wrapped capacity) then capacity ≤ used
  else used < capacity ∧
    1000000 * wrapped used / wrapped capacity = 1000000 * used / capacity

/-- The totals are counted as they are, or one wraps without consequence. -/
def Counted (used capacity : Nat) : Prop :=
  Unwrapped used capacity ∨ (2 ^ 64 ≤ used ∨ 2 ^ 64 ≤ capacity) ∧ Coincides used capacity

/-- Below 64 bits the totals coincide with themselves but for the scaled total. -/
private theorem counted_iff (used : Nat) {capacity : Nat} (hcapacity : 0 < capacity) :
    Counted used capacity ↔ Coincides used capacity := by
  unfold Counted Unwrapped
  by_cases hwraps : 2 ^ 64 ≤ used ∨ 2 ^ 64 ≤ capacity
  · simp only [hwraps, true_and, or_iff_right_iff_imp]
    omega
  · rw [not_or, not_le, not_le] at hwraps
    have hused : wrapped used = used := Nat.mod_eq_of_lt hwraps.1
    have hcap : wrapped capacity = capacity := Nat.mod_eq_of_lt hwraps.2
    unfold Coincides
    rw [hused, hcap]
    split
    · next h =>
      unfold ReadsFull at h
      omega
    · next h =>
      unfold ReadsFull at h
      simp only [and_true]
      omega

private theorem exact_iff_coincides {used : DemandVector} {capacity : CapacityVector}
    (hcapacity : 0 < capacity.total) :
    (utilizationPpm used capacity).toNat = partsPerMillion used.total capacity.total ↔
      Coincides used.total capacity.total := by
  have hlt := @partsPerMillion_lt_iff used.total _ hcapacity
  have hle := utilizationPpm_le used capacity
  unfold Coincides
  rw [toNat_utilizationPpm] at hle ⊢
  split
  · constructor
    · intro heq
      by_contra hless
      have := hlt.mpr (by omega)
      omega
    · intro hfull
      exact (partsPerMillion_of_le hcapacity hfull).symm
  · next hfull =>
    rw [if_neg hfull] at hle
    have hless : 1000000 * wrapped used.total / wrapped capacity.total < 1000000 := by
      unfold ReadsFull at hfull
      rcases Nat.eq_zero_or_pos (wrapped capacity.total) with hzero | hpos
      · rw [hzero, Nat.div_zero]
        omega
      · rw [Nat.div_lt_iff_lt_mul hpos]
        omega
    constructor
    · intro heq
      have hused : used.total < capacity.total := hlt.mp (by omega)
      refine ⟨hused, ?_⟩
      rw [heq]
      unfold partsPerMillion at heq ⊢
      omega
    · rintro ⟨hused, heq⟩
      have := hlt.mpr hused
      rw [heq]
      unfold partsPerMillion at this ⊢
      omega

/-- **Utilization is exact where the totals do not wrap** and the scaled total does not overflow,
and elsewhere by coincidence only. It is never above a million, and does not decrease with a
growing demand where it is exact. -/
theorem utilization_exact_iff (used used' : DemandVector) (capacity : CapacityVector)
    (hcapacity : capacity.total ≠ 0) :
    ((utilizationPpm used capacity).toNat = partsPerMillion used.total capacity.total ↔
        Counted used.total capacity.total) ∧
      (utilizationPpm used capacity).toNat ≤ 1000000 ∧
      (Counted used.total capacity.total → Counted used'.total capacity.total →
        used.Within used' → utilizationPpm used capacity ≤ utilizationPpm used' capacity) := by
  have hpos : 0 < capacity.total := by omega
  refine ⟨?_, utilizationPpm_le used capacity, fun hcounted hcounted' hwithin ↦ ?_⟩
  · rw [exact_iff_coincides hpos, counted_iff _ hpos]
  · have hexact := (exact_iff_coincides hpos).mpr ((counted_iff _ hpos).mp hcounted)
    have hexact' := (exact_iff_coincides hpos).mpr ((counted_iff _ hpos).mp hcounted')
    rw [UInt64.le_iff_toNat_le, hexact, hexact']
    exact partsPerMillion_mono hwithin.total_le _

/-- Ten of forty units of memory are a quarter of a device. -/
theorem utilization_quarter :
    (utilizationPpm { memory := 10 } { memory := 40 }).toNat = 250000 := by
  have hexact := (utilization_exact_iff { memory := 10 } { memory := 10 } { memory := 40 }
    (by decide)).1.mpr (.inl ⟨by decide, by decide, .inl (by decide)⟩)
  rw [hexact]
  decide

/-- A device of a petabyte with a thirty-second of it used counts as full, and a used total that
wraps counts as none. -/
theorem utilization_not_exact :
    (utilizationPpm { memory := 2 ^ 45 } { memory := 2 ^ 50 }).toNat ≠
        partsPerMillion (DemandVector.total { memory := 2 ^ 45 })
          (DemandVector.total { memory := 2 ^ 50 }) ∧
      utilizationPpm { flows := 2 ^ 63, memory := 2 ^ 63 } { memory := 1 } <
        utilizationPpm { flows := 1, memory := 0 } { memory := 1 } := by
  constructor
  · decide
  · decide

end OffloadFabric
