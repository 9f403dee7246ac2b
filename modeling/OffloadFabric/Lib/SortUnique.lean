import Mathlib.Data.List.Basic
import Mathlib.Order.Defs.LinearOrder

/-!
# Sorting and dropping repeats

A list that is sorted and has its repeats dropped is the strictly ascending list of the same
elements.
-/

namespace OffloadFabric.Lib

section EraseReps

variable {α : Type} [BEq α]

/-- What has been collected stands before what is left. -/
private theorem eraseReps_loop (a : α) (xs acc : List α) :
    List.eraseRepsBy.loop (· == ·) a xs acc =
      acc.reverse ++ List.eraseRepsBy.loop (· == ·) a xs [] := by
  induction xs generalizing a acc with
  | nil => simp [List.eraseRepsBy.loop]
  | cons b xs ih =>
    simp only [List.eraseRepsBy.loop]
    cases a == b with
    | true => exact ih a acc
    | false =>
      simp only
      rw [ih b (a :: acc), ih b [a]]
      simp

variable [LawfulBEq α]

theorem eraseReps_cons_self (a : α) (xs : List α) :
    (a :: a :: xs).eraseReps = (a :: xs).eraseReps := by
  simp only [List.eraseReps, List.eraseRepsBy, List.eraseRepsBy.loop, beq_self_eq_true]

theorem eraseReps_cons_of_ne {a b : α} (h : a ≠ b) (xs : List α) :
    (a :: b :: xs).eraseReps = a :: (b :: xs).eraseReps := by
  have hne : (a == b) = false := beq_eq_false_iff_ne.mpr h
  simp only [List.eraseReps, List.eraseRepsBy, List.eraseRepsBy.loop, hne]
  exact eraseReps_loop b xs [a]

/-- Dropping repeats loses no element. -/
theorem mem_eraseReps {x : α} {xs : List α} : x ∈ xs.eraseReps ↔ x ∈ xs := by
  induction xs with
  | nil => rfl
  | cons a xs ih =>
    cases xs with
    | nil => rfl
    | cons b xs =>
      by_cases hab : a = b
      · subst hab
        rw [eraseReps_cons_self, ih]
        simp
      · rw [eraseReps_cons_of_ne hab, List.mem_cons, ih, List.mem_cons (a := x) (b := a)]

/-- Of a sorted list each element is left once. -/
theorem pairwise_eraseReps {r : α → α → Prop} {xs : List α} (h : xs.Pairwise r)
    (hantisymm : ∀ a b, r a b → r b a → a = b) :
    xs.eraseReps.Pairwise fun a b ↦ r a b ∧ a ≠ b := by
  induction xs with
  | nil => exact .nil
  | cons a xs ih =>
    have hrest := ih h.of_cons
    cases xs with
    | nil => exact List.pairwise_singleton _ a
    | cons b xs =>
      by_cases hab : a = b
      · subst hab
        rw [eraseReps_cons_self]
        exact hrest
      · rw [eraseReps_cons_of_ne hab]
        refine List.Pairwise.cons (fun x hx ↦ ?_) hrest
        have hax : r a x := (List.pairwise_cons.mp h).1 x (mem_eraseReps.mp hx)
        refine ⟨hax, fun heq ↦ hab ?_⟩
        -- an element that comes back is the one next to it
        subst heq
        rcases List.mem_cons.mp (mem_eraseReps.mp hx) with hab' | hmem
        · exact hab'
        · exact hantisymm _ _ ((List.pairwise_cons.mp h).1 b List.mem_cons_self)
            ((List.pairwise_cons.mp h.of_cons).1 a hmem)

end EraseReps

section SortUnique

variable {α : Type} [BEq α] [LawfulBEq α] [Ord α]

theorem mem_sortUnique {x : α} {xs : List α} :
    x ∈ (xs.mergeSort fun a b ↦ (compare a b).isLE).eraseReps ↔ x ∈ xs :=
  mem_eraseReps.trans List.mem_mergeSort

variable [Std.TransOrd α] [Std.LawfulEqOrd α]

/-- Sorting and dropping the repeats leaves a strictly ascending list. -/
theorem pairwise_sortUnique (xs : List α) :
    (xs.mergeSort fun a b ↦ (compare a b).isLE).eraseReps.Pairwise fun a b ↦
      compare a b = .lt := by
  have hsorted : (xs.mergeSort fun a b ↦ (compare a b).isLE).Pairwise fun a b ↦
      (compare a b).isLE = true := by
    apply List.pairwise_mergeSort
    · intro a b c hab hbc
      exact Std.TransCmp.isLE_trans hab hbc
    · intro a b
      have hswap : compare b a = (compare a b).swap := Std.OrientedCmp.eq_swap
      rw [hswap]
      cases compare a b <;> rfl
  have heq : ∀ a b : α, (compare a b).isLE = true → (compare b a).isLE = true → a = b :=
    fun a b hab hba ↦ Std.LawfulEqCmp.compare_eq_iff_eq.mp (Std.OrientedCmp.isLE_antisymm hab hba)
  refine (pairwise_eraseReps hsorted heq).imp fun {a b} ⟨hle, hne⟩ ↦ ?_
  cases hcmp : compare a b with
  | lt => rfl
  | eq => exact absurd (Std.LawfulEqCmp.compare_eq_iff_eq.mp hcmp) hne
  | gt =>
    rw [hcmp] at hle
    cases hle

end SortUnique

end OffloadFabric.Lib
