import Std.Data.ExtTreeMap
import Mathlib.Data.List.Basic

/-!
# Values gathered under keys

A map filled by one pass over a list: an item with a key changes what stands under that key, or an
initial value where nothing does. What stands there at the end is a fold over the items of the key
alone.
-/

namespace OffloadFabric.Lib

variable {α κ ν : Type} [Ord κ] [Std.TransOrd κ] {key : α → Option κ} {step : ν → α → ν} {init : ν}

/-- Change what stands under the key of an item, if it has one. -/
def gather (key : α → Option κ) (step : ν → α → ν) (init : ν) (m : Std.ExtTreeMap κ ν) (x : α) :
    Std.ExtTreeMap κ ν :=
  match key x with
  | some k => m.insert k (step (m[k]?.getD init) x)
  | none => m

theorem gather_none {x : α} (h : key x = none) (m : Std.ExtTreeMap κ ν) :
    gather key step init m x = m := by
  rw [gather, h]

theorem gather_some {x : α} {k : κ} (h : key x = some k) (m : Std.ExtTreeMap κ ν) :
    gather key step init m x = m.insert k (step (m[k]?.getD init) x) := by
  rw [gather, h]

variable [Std.LawfulEqOrd κ]

/-- What holds of the listed entries holds of what stands under the keys. -/
theorem forall_entries {m : Std.ExtTreeMap κ ν} {P : κ → ν → Prop} :
    (∀ e ∈ m.toList, P e.1 e.2) ↔ ∀ k v, m[k]? = some v → P k v := by
  constructor
  · intro h k v hv
    exact h (k, v) (Std.ExtTreeMap.mem_toList_iff_getElem?_eq_some.mpr hv)
  · rintro h ⟨k, v⟩ hmem
    exact h k v (Std.ExtTreeMap.mem_toList_iff_getElem?_eq_some.mp hmem)

/-- What holds of the keys of the listed entries holds of all keys. -/
theorem forall_keys {m : Std.ExtTreeMap κ ν} {P : κ → Prop} :
    (∀ e ∈ m.toList, P e.1) ↔ ∀ k ∈ m, P k := by
  simp only [@forall_entries _ _ _ _ _ m fun k _ ↦ P k]
  simp only [Std.ExtTreeMap.mem_iff_isSome_getElem?, Option.isSome_iff_exists, forall_exists_index]

/-- Something stands under the keys of the items, and where something stood. -/
theorem mem_foldl_gather (xs : List α) (m : Std.ExtTreeMap κ ν) (k : κ) :
    k ∈ xs.foldl (gather key step init) m ↔ (∃ x ∈ xs, key x = some k) ∨ k ∈ m := by
  induction xs generalizing m with
  | nil => simp
  | cons x xs ih =>
    rw [List.foldl_cons, ih]
    cases hx : key x with
    | none =>
      rw [gather_none hx]
      simp [hx]
    | some k' =>
      rw [gather_some hx, Std.ExtTreeMap.mem_insert, Std.LawfulEqCmp.compare_eq_iff_eq]
      simp only [List.exists_mem_cons_iff, hx, Option.some.injEq]
      exact or_left_comm.trans or_assoc.symm

variable [DecidableEq κ]

/-- What stands under a key is made of the items of that key. -/
theorem getD_foldl_gather (xs : List α) (m : Std.ExtTreeMap κ ν) (k : κ) :
    (xs.foldl (gather key step init) m)[k]?.getD init =
      (xs.filter fun x ↦ key x = some k).foldl step (m[k]?.getD init) := by
  induction xs generalizing m with
  | nil => rfl
  | cons x xs ih =>
    rw [List.foldl_cons, ih]
    cases hx : key x with
    | none =>
      rw [gather_none hx, List.filter_cons_of_neg (by simp [hx])]
    | some k' =>
      rw [gather_some hx, Std.ExtTreeMap.getElem?_insert]
      by_cases hk : k' = k
      · subst hk
        rw [List.filter_cons_of_pos (by simp [hx]), List.foldl_cons,
          if_pos (Std.LawfulEqCmp.compare_eq_iff_eq.mpr rfl), Option.getD_some]
      · rw [List.filter_cons_of_neg (by simp [hx, hk]),
          if_neg (mt Std.LawfulEqCmp.compare_eq_iff_eq.mp hk)]

/-- A map that counts the items of each key. -/
theorem getD_count (xs : List α) (k : κ) :
    (xs.foldl (gather key (fun n _ ↦ n + 1) 0) ∅)[k]?.getD 0 =
      xs.countP fun x ↦ key x = some k := by
  have hlength : ∀ (ys : List α) n, ys.foldl (fun n _ ↦ n + 1) n = n + ys.length := by
    intro ys
    induction ys with
    | nil => intro n; rfl
    | cons y ys ih =>
      intro n
      rw [List.foldl_cons, ih, List.length_cons]
      omega
  rw [getD_foldl_gather, Std.ExtTreeMap.getElem?_empty, hlength, List.countP_eq_length_filter]
  exact Nat.zero_add _

/-- No count exceeds one when no key belongs to two items. -/
theorem counts_le_one (xs : List α) :
    (∀ e ∈ (xs.foldl (gather key (fun n _ ↦ n + 1) 0) ∅).toList, ¬ 1 < e.2) ↔
      ∀ k, (xs.countP fun x ↦ key x = some k) ≤ 1 := by
  constructor
  · intro h k
    rw [← getD_count]
    cases hk : (xs.foldl (gather key (fun n _ ↦ n + 1) 0) ∅)[k]? with
    | none => exact Nat.zero_le 1
    | some n =>
      have := h (k, n) (Std.ExtTreeMap.mem_toList_iff_getElem?_eq_some.mpr hk)
      exact Nat.not_lt.mp this
  · rintro h ⟨k, n⟩ hmem
    have hk := h k
    rw [← getD_count, Std.ExtTreeMap.mem_toList_iff_getElem?_eq_some.mp hmem] at hk
    exact Nat.not_lt.mpr hk

end OffloadFabric.Lib
