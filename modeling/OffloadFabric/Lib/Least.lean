import Mathlib.Order.Lattice

/-!
# The first least element of a list

A scan that keeps the best element so far and takes a later one only where it is strictly better
ends at a least element. Where no two elements are equally good it is the only one.
-/

namespace OffloadFabric.Lib

variable {α κ : Type} [LinearOrder κ] {better : α → α → Bool} {key : α → κ} {xs : List α}
  {m x : α}

/-- Keep the best element so far, or take the next one. -/
def keepBetter (better : α → α → Bool) : Option α → α → Option α
  | none, x => some x
  | some m, x => if better x m then some x else some m

/-- The first element that no later one is better than. -/
def firstLeast (better : α → α → Bool) (xs : List α) : Option α :=
  xs.foldl (keepBetter better) none

/-- An element of the list with the least key. -/
structure IsLeastOf (key : α → κ) (xs : List α) (m : α) : Prop where
  mem : m ∈ xs
  le : ∀ x ∈ xs, key m ≤ key x

/-- From the best element so far, a scan reaches the least of it and the rest. -/
private theorem foldl_keepBetter (hbetter : ∀ x y, better x y = true ↔ key x < key y)
    (xs : List α) (m : α) :
    ∃ m', xs.foldl (keepBetter better) (some m) = some m' ∧ IsLeastOf key (m :: xs) m' := by
  induction xs generalizing m with
  | nil => exact ⟨m, rfl, List.mem_singleton_self m, by simp⟩
  | cons x xs ih =>
    obtain ⟨m', hfold, hmem, hle⟩ := ih (if better x m then x else m)
    have hnext : keepBetter better (some m) x = some (if better x m then x else m) := by
      change (if better x m then some x else some m) = _
      split <;> rfl
    refine ⟨m', by rw [List.foldl_cons, hnext, hfold], ?_, ?_⟩
    · split at hmem
      · exact List.mem_cons_of_mem m hmem
      · rcases List.mem_cons.mp hmem with rfl | hmem
        · exact List.mem_cons_self
        · exact List.mem_cons_of_mem _ (List.mem_cons_of_mem _ hmem)
    · have hfirst := hle _ List.mem_cons_self
      have hboth : key m' ≤ key m ∧ key m' ≤ key x := by
        split at hfirst
        · next h => exact ⟨hfirst.trans ((hbetter x m).mp h).le, hfirst⟩
        · next h => exact ⟨hfirst, hfirst.trans (not_lt.mp (mt (hbetter x m).mpr h))⟩
      intro y hy
      rcases List.mem_cons.mp hy with rfl | hy
      · exact hboth.1
      · rcases List.mem_cons.mp hy with rfl | hy
        · exact hboth.2
        · exact hle y (List.mem_cons_of_mem _ hy)

/-- **A scan ends at a least element.** -/
theorem isLeastOf_of_firstLeast (hbetter : ∀ x y, better x y = true ↔ key x < key y)
    (h : firstLeast better xs = some m) : IsLeastOf key xs m := by
  cases xs with
  | nil => cases h
  | cons x xs =>
    obtain ⟨m', hfold, hleast⟩ := foldl_keepBetter hbetter xs x
    have hsame : firstLeast better (x :: xs) = some m' := hfold
    rw [hsame] at h
    cases h
    exact hleast

/-- A scan finds nothing in an empty list only. -/
theorem firstLeast_eq_none (hbetter : ∀ x y, better x y = true ↔ key x < key y) :
    firstLeast better xs = none ↔ xs = [] := by
  cases xs with
  | nil => exact ⟨fun _ ↦ rfl, fun _ ↦ rfl⟩
  | cons x xs =>
    obtain ⟨m', hfold, -⟩ := foldl_keepBetter hbetter xs x
    have hsame : firstLeast better (x :: xs) = some m' := hfold
    rw [hsame]
    simp

/-- Two least elements have the same key. -/
theorem IsLeastOf.key_eq {m' : α} (h : IsLeastOf key xs m) (h' : IsLeastOf key xs m') :
    key m = key m' :=
  le_antisymm (h.le m' h'.mem) (h'.le m h.mem)

/-- Where the keys tell the elements apart, the least element is below every other. -/
theorem IsLeastOf.lt (h : IsLeastOf key xs m)
    (hkey : ∀ x ∈ xs, ∀ y ∈ xs, key x = key y → x = y) (hx : x ∈ xs) (hne : x ≠ m) :
    key m < key x :=
  lt_of_le_of_ne (h.le x hx) fun heq ↦ hne (hkey m h.mem x hx heq).symm

end OffloadFabric.Lib
