import OffloadFabric.Lib.Fallible

/-!
# What a program keeps

A predicate of states that a fallible program keeps, whatever it returns. It is closed under each
way of building a program.
-/

namespace OffloadFabric.Lib.Fallible

variable {σ ε α β : Type} {I : σ → Prop}

/-- Every run from a state that satisfies the predicate ends in one, also where it fails. -/
def Keeps (I : σ → Prop) (x : Fallible σ ε α) : Prop := ∀ s, I s → I (x.exec s).2

namespace Keeps

/-- The end of a run satisfies what its program keeps. -/
theorem of_exec {x : Fallible σ ε α} {s t : σ} {r : Except ε α} (h : x.exec s = (r, t))
    (hx : Keeps I x) (hs : I s) : I t := by
  have ht := hx s hs
  rwa [h] at ht

theorem pure (a : α) : Keeps I (Pure.pure a : Fallible σ ε α) := fun _ hs ↦ hs

theorem throw (e : ε) : Keeps I (throw e : Fallible σ ε α) := fun _ hs ↦ hs

theorem get : Keeps I (get : Fallible σ ε σ) := fun _ hs ↦ hs

theorem modify {f : σ → σ} (h : ∀ s, I s → I (f s)) : Keeps I (modify f : Fallible σ ε PUnit) := h

theorem liftExcept (x : Except ε α) : Keeps I (liftExcept x : Fallible σ ε α) := by
  intro s hs
  rw [exec_liftExcept]
  exact hs

theorem check (p : Prop) [Decidable p] (e : ε) : Keeps I (check p e : Fallible σ ε Unit) := by
  intro s hs
  rw [exec_check]
  split
  · exact hs
  · exact hs

theorem found (o : Option α) (e : ε) : Keeps I (found o e : Fallible σ ε α) := by
  cases o with
  | none => exact .throw e
  | some a => exact .pure a

theorem bind {x : Fallible σ ε α} {f : α → Fallible σ ε β} (hx : Keeps I x)
    (hf : ∀ a, Keeps I (f a)) : Keeps I (x >>= f) := by
  intro s hs
  have ht := hx s hs
  rw [exec_bind]
  generalize x.exec s = out at ht
  obtain ⟨r, t⟩ := out
  cases r with
  | error e => exact ht
  | ok a => exact hf a t ht

theorem map {f : α → β} {x : Fallible σ ε α} (hx : Keeps I x) : Keeps I (f <$> x) := by
  intro s hs
  rw [exec_map]
  exact hx s hs

theorem ite {p : Prop} [Decidable p] {x y : Fallible σ ε α} (hx : Keeps I x) (hy : Keeps I y) :
    Keeps I (if p then x else y) := by
  split
  · exact hx
  · exact hy

theorem tryCatch {x : Fallible σ ε α} {f : ε → Fallible σ ε α} (hx : Keeps I x)
    (hf : ∀ e, Keeps I (f e)) : Keeps I (tryCatch x f) := by
  intro s hs
  have ht := hx s hs
  rw [exec_tryCatch]
  generalize x.exec s = out at ht
  obtain ⟨r, t⟩ := out
  cases r with
  | ok a => exact ht
  | error e => exact hf e t ht

end Keeps

end OffloadFabric.Lib.Fallible
