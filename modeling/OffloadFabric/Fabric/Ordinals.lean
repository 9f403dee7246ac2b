import OffloadFabric.Fabric.State
import Mathlib.Tactic.IntervalCases

/-!
# Ordinals

The ordinal of an assignment is spelled in its identifier (`src/digest.cpp:196-205`) and is read
back from it (`src/fabric.cpp:83-101`).
-/

namespace OffloadFabric

/-- The number of a hexadecimal digit, counted from the last one. -/
private def digitAt (n : UInt64) (i : Nat) : UInt64 := UInt64.ofNat (n.toNat / 16 ^ i % 16)

private theorem digitAt_lt (n : UInt64) (i : Nat) : digitAt n i < 16 := by
  rw [UInt64.lt_iff_toNat_lt]
  simp only [digitAt, UInt64.toNat_ofNat', UInt64.reduceToNat]
  omega

/-- The sixteen digits of a number, the first one first. -/
private theorem hex64_eq (n : UInt64) :
    hex64 n = (List.range 16).reverse.map fun i ↦ hexDigit (digitAt n i) := by
  have hindices : ([15, 14, 13, 12, 11, 10, 9, 8, 7, 6, 5, 4, 3, 2, 1, 0] : List UInt64) =
      (List.range 16).reverse.map UInt64.ofNat := by decide
  unfold hex64
  rw [hindices, List.map_map]
  refine List.map_congr_left fun i hi ↦ congrArg hexDigit ?_
  have hi : i < 16 := List.mem_range.mp (List.mem_reverse.mp hi)
  apply UInt64.toNat_inj.mp
  have hshift : (UInt64.ofNat i * 4).toNat % 64 = 4 * i := by
    simp only [UInt64.toNat_mul, UInt64.toNat_ofNat', UInt64.reduceToNat]
    omega
  rw [UInt64.toNat_and, UInt64.toNat_shiftRight, hshift, Nat.shiftRight_eq_div_pow]
  have hmask : n.toNat / 2 ^ (4 * i) &&& (0xF : UInt64).toNat = n.toNat / 2 ^ (4 * i) % 2 ^ 4 :=
    Nat.and_two_pow_sub_one_eq_mod _ 4
  rw [hmask, Nat.pow_mul]
  simp only [digitAt, UInt64.toNat_ofNat', Nat.reducePow]
  omega

/-- The order of the digits is that of their characters. -/
private theorem compare_hexDigit {i j : Nat} (hj : j < 16) (h : i < j) :
    compare (hexDigit (UInt64.ofNat i)) (hexDigit (UInt64.ofNat j)) = .lt := by
  have hdigits : ∀ j < 16, ∀ i < j,
      compare (hexDigit (UInt64.ofNat i)) (hexDigit (UInt64.ofNat j)) = .lt := by decide
  exact hdigits j hj i h

/-- The last digits of a number are ordered as what they spell. -/
private theorem compare_digits {n m : UInt64} (i : Nat)
    (h : n.toNat % 16 ^ i < m.toNat % 16 ^ i) :
    compare ((List.range i).reverse.map fun j ↦ hexDigit (digitAt n j))
      ((List.range i).reverse.map fun j ↦ hexDigit (digitAt m j)) = .lt := by
  induction i with
  | zero =>
    rw [pow_zero, Nat.mod_one, Nat.mod_one] at h
    exact absurd h (Nat.lt_irrefl 0)
  | succ i ih =>
    rw [Nat.mod_pow_succ, Nat.mod_pow_succ] at h
    rw [List.range_succ, List.reverse_append, List.reverse_singleton, List.singleton_append,
      List.map_cons, List.map_cons, List.compare_cons_cons]
    have hn : n.toNat % 16 ^ i < 16 ^ i := Nat.mod_lt _ (by positivity)
    have hm : m.toNat % 16 ^ i < 16 ^ i := Nat.mod_lt _ (by positivity)
    rcases Nat.lt_trichotomy (n.toNat / 16 ^ i % 16) (m.toNat / 16 ^ i % 16) with hlt | heq | hgt
    · have hhead : compare (hexDigit (digitAt n i)) (hexDigit (digitAt m i)) = .lt :=
        compare_hexDigit (Nat.mod_lt _ (by decide)) hlt
      rw [hhead]
      rfl
    · have hhead : digitAt n i = digitAt m i := by
        unfold digitAt
        rw [heq]
      rw [heq] at h
      have hself : compare (hexDigit (digitAt m i)) (hexDigit (digitAt m i)) = .eq :=
        Std.ReflCmp.compare_self
      rw [hhead, hself]
      exact ih (by omega)
    · have hle := Nat.mul_le_mul_left (16 ^ i) (Nat.succ_le_of_lt hgt)
      rw [Nat.mul_succ] at hle
      omega

/-- **The spellings of ordinals are ordered as the ordinals**, also behind a common head. -/
theorem compare_hex64 {n m : UInt64} (h : n < m) : compare (hex64 n) (hex64 m) = .lt := by
  rw [hex64_eq, hex64_eq]
  apply compare_digits
  have hn : n.toNat < 16 ^ 16 := n.toNat_lt
  have hm : m.toNat < 16 ^ 16 := m.toNat_lt
  rw [Nat.mod_eq_of_lt hn, Nat.mod_eq_of_lt hm]
  exact UInt64.lt_iff_toNat_lt.mp h

theorem compare_append_left (head xs ys : Bytes) :
    compare (head ++ xs) (head ++ ys) = compare xs ys := by
  induction head with
  | nil => rfl
  | cons x head ih =>
    have hself : compare x x = .eq := Std.ReflCmp.compare_self
    rw [List.cons_append, List.cons_append, List.compare_cons_cons, hself]
    exact ih

namespace FabricState

/-- A digit that is read is appended to the value read before it. -/
theorem hexValue_hexDigit (value : UInt64) {d : UInt64} (hd : d < 16) (cs : Bytes) :
    hexValue value (hexDigit d :: cs) = hexValue (value <<< 4 ||| d) cs := by
  have hdigits : ∀ i < 16, hexValue value (hexDigit (UInt64.ofNat i) :: cs) =
      hexValue (value <<< 4 ||| UInt64.ofNat i) cs := by
    intro i hi
    interval_cases i <;> rfl
  have hd := hdigits d.toNat (UInt64.lt_iff_toNat_lt.mp hd)
  rwa [UInt64.ofNat_toNat] at hd

/-- The digits before one and that digit. -/
private theorem shift_or_digitAt (n : UInt64) (i : Nat) :
    UInt64.ofNat (n.toNat / 16 ^ (i + 1)) <<< 4 ||| digitAt n i =
      UInt64.ofNat (n.toNat / 16 ^ i) := by
  have hlt : n.toNat / 16 ^ i < 2 ^ 64 := (Nat.div_le_self _ _).trans_lt n.toNat_lt
  have hdiv : n.toNat / 16 ^ (i + 1) = n.toNat / 16 ^ i / 16 := by
    rw [pow_succ, Nat.div_div_eq_div_mul]
  apply UInt64.toNat_inj.mp
  rw [hdiv]
  simp only [digitAt, UInt64.toNat_or, UInt64.toNat_shiftLeft, UInt64.toNat_ofNat',
    UInt64.reduceToNat, Nat.reduceMod]
  generalize n.toNat / 16 ^ i = x at hlt
  rw [Nat.mod_eq_of_lt (show x / 16 < 2 ^ 64 by omega), Nat.shiftLeft_eq,
    Nat.mod_eq_of_lt (show x / 16 * 2 ^ 4 < 2 ^ 64 by omega),
    Nat.mod_eq_of_lt (show x % 16 < 2 ^ 64 by omega), Nat.mod_eq_of_lt hlt, ← Nat.shiftLeft_eq,
    ← Nat.shiftLeft_add_eq_or_of_lt (show x % 16 < 2 ^ 4 by omega), Nat.shiftLeft_eq]
  omega

/-- Reading the last digits completes a number. -/
private theorem hexValue_digits (n : UInt64) (i : Nat) :
    hexValue (UInt64.ofNat (n.toNat / 16 ^ i))
      ((List.range i).reverse.map fun j ↦ hexDigit (digitAt n j)) = some n := by
  induction i with
  | zero =>
    simp only [pow_zero, Nat.div_one, UInt64.ofNat_toNat]
    rfl
  | succ i ih =>
    rw [List.range_succ, List.reverse_append, List.reverse_singleton, List.singleton_append,
      List.map_cons, hexValue_hexDigit _ (digitAt_lt n i), shift_or_digitAt]
    exact ih

/-- The sixteen digits of a number spell it. -/
theorem hexValue_hex64 (n : UInt64) : hexValue 0 (hex64 n) = some n := by
  have hzero : (0 : UInt64) = UInt64.ofNat (n.toNat / 16 ^ 16) := by
    have hlt : n.toNat < 16 ^ 16 := n.toNat_lt
    rw [Nat.div_eq_of_lt hlt]
    rfl
  rw [hzero, hex64_eq]
  exact hexValue_digits n 16

/-- **The ordinal of an issued identifier is the one it was issued for.** -/
theorem parseOrdinal_hex64 (head : Bytes) (n : UInt64) :
    parseOrdinal (head ++ hex64 n) head = n := by
  have hlength : (head ++ hex64 n).length = head.length + 16 := by
    rw [List.length_append]
    rfl
  unfold parseOrdinal
  rw [if_pos ⟨hlength, List.take_left⟩, List.drop_left, hexValue_hex64]
  rfl

end FabricState

end OffloadFabric
