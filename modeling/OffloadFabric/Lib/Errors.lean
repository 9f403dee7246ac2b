import OffloadFabric.Lib.Codec

/-!
# The errors of a program

A predicate that every error of a fallible state program or of a writer satisfies, whatever
state it runs in. It is closed under each way of building one.
-/

namespace OffloadFabric.Lib

variable {σ ρ ε α β : Type} {P : ε → Prop}

namespace Fallible

/-- Every error the program stops with satisfies the predicate, from any state. -/
def Throws (P : ε → Prop) (x : Fallible σ ε α) : Prop := ∀ s e, (x.exec s).1 = .error e → P e

namespace Throws

/-- The error of a run satisfies what every error of its program does. -/
theorem of_exec {x : Fallible σ ε α} {s t : σ} {e : ε} (h : x.exec s = (.error e, t))
    (hx : Throws P x) : P e := hx s e (congrArg Prod.fst h)

theorem mono {Q : ε → Prop} {x : Fallible σ ε α} (h : Throws P x) (hPQ : ∀ e, P e → Q e) :
    Throws Q x := fun s e he ↦ hPQ e (h s e he)

theorem pure (a : α) : Throws P (Pure.pure a : Fallible σ ε α) := by
  intro s e he
  cases he

theorem throw {e : ε} (h : P e) : Throws P (throw e : Fallible σ ε α) := by
  intro s e' he
  cases he
  exact h

theorem get : Throws P (get : Fallible σ ε σ) := by
  intro s e he
  cases he

theorem set (t : σ) : Throws P (set t : Fallible σ ε PUnit) := by
  intro s e he
  cases he

theorem modify (f : σ → σ) : Throws P (modify f : Fallible σ ε PUnit) := by
  intro s e he
  cases he

theorem liftExcept {x : Except ε α} (h : ∀ e, x = .error e → P e) :
    Throws P (liftExcept x : Fallible σ ε α) := by
  intro s e he
  rw [exec_liftExcept] at he
  exact h e he

theorem check {p : Prop} [Decidable p] {e : ε} (h : P e) :
    Throws P (check p e : Fallible σ ε Unit) := by
  intro s e' he
  rw [exec_check] at he
  split at he
  · cases he
  · cases he
    exact h

theorem found {o : Option α} {e : ε} (h : P e) : Throws P (found o e : Fallible σ ε α) := by
  cases o with
  | none => exact .throw h
  | some a => exact .pure a

theorem bind {x : Fallible σ ε α} {f : α → Fallible σ ε β} (hx : Throws P x)
    (hf : ∀ a, Throws P (f a)) : Throws P (x >>= f) := by
  intro s e he
  have hs := hx s
  rw [exec_bind] at he
  generalize x.exec s = out at hs he
  obtain ⟨r, t⟩ := out
  cases r with
  | error e' =>
      cases he
      exact hs e rfl
  | ok a => exact hf a t e he

theorem ite {p : Prop} [Decidable p] {x y : Fallible σ ε α} (hx : Throws P x)
    (hy : Throws P y) : Throws P (if p then x else y) := by
  split
  · exact hx
  · exact hy

end Throws

end Fallible

namespace Coder

/-- Every error of the writer satisfies the predicate, whatever stands before it. -/
class Raises (P : ε → Prop) (w : Coder ρ ε Unit) : Prop where
  of_run : ∀ {c : ρ} {s : List UInt8} {e : ε}, (w.run c s).1 = .error e → P e

instance Raises.pure : Raises P (Pure.pure () : Coder ρ ε Unit) where
  of_run h := by cases h

instance Raises.bind (w₁ w₂ : Coder ρ ε Unit) [h₁ : Raises P w₁] [h₂ : Raises P w₂] :
    Raises P (w₁ >>= fun _ ↦ w₂) where
  of_run {c s e} h := by
    rw [run_bind] at h
    cases hs : w₁.run c s with
    | mk r t =>
        rw [hs] at h
        cases r with
        | error e' =>
            cases h
            exact h₁.of_run (c := c) (s := s) (congrArg Prod.fst hs)
        | ok a => exact h₂.of_run h

instance Raises.ite (p : Prop) [Decidable p] (w₁ w₂ : Coder ρ ε Unit) [h₁ : Raises P w₁]
    [h₂ : Raises P w₂] : Raises P (if p then w₁ else w₂) := by
  split
  · exact h₁
  · exact h₂

instance Raises.each (w : α → Coder ρ ε Unit) [h : ∀ a, Raises P (w a)] (xs : List α) :
    Raises P (each w xs) := by
  induction xs with
  | nil => exact Raises.pure
  | cons x xs ih => exact Raises.bind (w x) (Coder.each w xs)

end Coder

end OffloadFabric.Lib
