import Mathlib.Logic.Basic

/-!
# Updates that settle a value

An update of a state settles a value seen of it when it sets, keeps or corrects that value,
the same way whatever the state is. Such updates compose, and one that is repeated on a state
that already shows its outcome shows that outcome again.
-/

namespace OffloadFabric.Lib

variable {σ ω : Type}

/-- What an update does to a value seen of the state; `r` is the correction it may apply. -/
inductive Settles (v : σ → ω) (r : ω → ω) (f : σ → σ) : Prop
  | sets (w : ω) (h : ∀ s, v (f s) = w)
  | keeps (h : ∀ s, v (f s) = v s)
  | corrects (h : ∀ s, v (f s) = r (v s))

namespace Settles

variable {v : σ → ω} {r : ω → ω} {f g : σ → σ}

/-- An update that sets a value under a condition on no state. -/
theorem of_ite {p : Prop} [Decidable p] (w : ω) (h : ∀ s, v (f s) = if p then w else v s) :
    Settles v r f := by
  by_cases hp : p
  · exact .sets w fun s ↦ by rw [h, if_pos hp]
  · exact .keeps fun s ↦ by rw [h, if_neg hp]

/-- An update that sets an optional value where it has one. -/
theorem of_or {α : Type} {v : σ → Option α} {r : Option α → Option α} (o : Option α)
    (h : ∀ s, v (f s) = o.or (v s)) : Settles v r f := by
  cases o with
  | none => exact .keeps h
  | some a => exact .sets (some a) h

theorem id : Settles v r fun s ↦ s := .keeps fun _ ↦ rfl

/-- What is seen after an update decides whether it settles. -/
theorem of_eq (h : Settles v r g) (heq : ∀ s, v (f s) = v (g s)) : Settles v r f := by
  cases h with
  | sets w h => exact .sets w fun s ↦ (heq s).trans (h s)
  | keeps h => exact .keeps fun s ↦ (heq s).trans (h s)
  | corrects h => exact .corrects fun s ↦ (heq s).trans (h s)

/-- Updates that settle a value settle it one after the other. -/
theorem comp (hr : ∀ w, r (r w) = r w) (hg : Settles v r g) (hf : Settles v r f) :
    Settles v r fun s ↦ g (f s) := by
  cases hg with
  | sets w hg => exact .sets w fun s ↦ hg (f s)
  | keeps hg =>
      cases hf with
      | sets w hf => exact .sets w fun s ↦ (hg (f s)).trans (hf s)
      | keeps hf => exact .keeps fun s ↦ (hg (f s)).trans (hf s)
      | corrects hf => exact .corrects fun s ↦ (hg (f s)).trans (hf s)
  | corrects hg =>
      cases hf with
      | sets w hf => exact .sets (r w) fun s ↦ by rw [hg, hf]
      | keeps hf => exact .corrects fun s ↦ by rw [hg, hf]
      | corrects hf => exact .corrects fun s ↦ by rw [hg, hf, hr]

/-- What is seen after the update depends only on what was seen before. -/
theorem congr (h : Settles v r f) {s t : σ} (hst : v s = v t) : v (f s) = v (f t) := by
  cases h with
  | sets w h => rw [h, h]
  | keeps h => rw [h, h, hst]
  | corrects h => rw [h, h, hst]

/-- An update absorbs its own outcome. -/
theorem absorb (hr : ∀ w, r (r w) = r w) (h : Settles v r f) {s t : σ}
    (hs : v s = v (f t)) : v (f s) = v (f t) := by
  cases h with
  | sets w h => rw [h, h]
  | keeps h => rw [h, hs]
  | corrects h => rw [h, hs, h, hr]

end Settles

end OffloadFabric.Lib
