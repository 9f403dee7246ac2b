import Mathlib.Data.List.Chain

/-!
# Histories

A history is a list of events, each of which may bring values of some kind. The latest value is
what a state that follows the history holds, and a history in which every new value is above the
latest one is ordered throughout.
-/

namespace OffloadFabric.Lib

variable {α β : Type} {f : α → List β} {R : β → β → Prop}

/-- The last value that a history brings. -/
def latest (f : α → List β) (h : List α) : Option β := (h.flatMap f).getLast?

@[simp] theorem latest_nil (f : α → List β) : latest f [] = none := rfl

/-- The last event decides, if it brings a value. -/
theorem latest_append (f : α → List β) (h : List α) (a : α) :
    latest f (h ++ [a]) = (f a).getLast?.or (latest f h) := by
  unfold latest
  rw [List.flatMap_append, List.flatMap_singleton, List.getLast?_append]

theorem latest_append_of_nil {h : List α} {a : α} (ha : f a = []) :
    latest f (h ++ [a]) = latest f h := by
  rw [latest_append, ha]
  rfl

theorem exists_of_latest {h : List α} {b : β} (hb : latest f h = some b) : ∃ a ∈ h, b ∈ f a :=
  List.mem_flatMap.mp (List.mem_of_getLast? hb)

/-- The values of a history are ordered when those of its last event are, and are above the
latest before it. -/
theorem pairwise_append_of_latest [IsTrans β R] {h : List α} {a : α}
    (hh : (h.flatMap f).Pairwise R) (ha : (f a).Pairwise R)
    (hlatest : ∀ b, latest f h = some b → ∀ b' ∈ f a, R b b') :
    ((h ++ [a]).flatMap f).Pairwise R := by
  rw [List.flatMap_append, List.flatMap_singleton]
  rw [← List.isChain_iff_pairwise] at hh ha ⊢
  refine List.isChain_append.mpr ⟨hh, ha, fun b hb b' hb' ↦ ?_⟩
  exact hlatest b hb b' (List.mem_of_head? hb')

end OffloadFabric.Lib
