import Mathlib.Logic.Relation

/-!
# Fallible state programs

Programs over a state that return a value or an error and keep the state reached either way.
The rules are an execution equation for each way of building a program, a triple with a
separate condition for the error outcome, and step relations followed by every run.
-/

namespace OffloadFabric.Lib

variable {σ ε α β : Type}

/-- A program over states `σ` with errors `ε`; a failed run keeps the state it reached. -/
abbrev Fallible (σ ε : Type) : Type → Type := ExceptT ε (StateM σ)

namespace Fallible

/-- Run a program from a state. -/
def exec (x : Fallible σ ε α) (s : σ) : Except ε α × σ := x s

theorem exec_ext {x y : Fallible σ ε α} (h : ∀ s, x.exec s = y.exec s) : x = y := funext h

@[simp] theorem exec_pure (a : α) (s : σ) :
    (pure a : Fallible σ ε α).exec s = (.ok a, s) := rfl

@[simp] theorem exec_throw (e : ε) (s : σ) :
    (throw e : Fallible σ ε α).exec s = (.error e, s) := rfl

@[simp] theorem exec_get (s : σ) : (get : Fallible σ ε σ).exec s = (.ok s, s) := rfl

@[simp] theorem exec_set (t s : σ) : (set t : Fallible σ ε PUnit).exec s = (.ok ⟨⟩, t) := rfl

@[simp] theorem exec_modify (f : σ → σ) (s : σ) :
    (modify f : Fallible σ ε PUnit).exec s = (.ok ⟨⟩, f s) := rfl

@[simp] theorem exec_liftExcept (x : Except ε α) (s : σ) :
    (liftExcept x : Fallible σ ε α).exec s = (x, s) := by
  cases x <;> rfl

/-- A check: stop with the given error unless the condition holds. -/
def check (p : Prop) [Decidable p] (e : ε) : Fallible σ ε Unit := if p then pure () else throw e

theorem exec_check (p : Prop) [Decidable p] (e : ε) (s : σ) :
    (check p e : Fallible σ ε Unit).exec s = if p then (.ok (), s) else (.error e, s) := by
  unfold check
  split <;> rfl

/-- A lookup that must succeed: stop with the given error when it finds nothing. -/
def found (o : Option α) (e : ε) : Fallible σ ε α :=
  match o with
  | some a => pure a
  | none => throw e

@[simp] theorem exec_found_some (a : α) (e : ε) (s : σ) :
    (found (some a) e : Fallible σ ε α).exec s = (.ok a, s) := rfl

@[simp] theorem exec_found_none (e : ε) (s : σ) :
    (found none e : Fallible σ ε α).exec s = (.error e, s) := rfl

/-- Sequencing passes the state on and stops at the first error. -/
theorem exec_bind (x : Fallible σ ε α) (f : α → Fallible σ ε β) (s : σ) :
    (x >>= f).exec s =
      match x.exec s with
      | (.ok a, t) => (f a).exec t
      | (.error e, t) => (.error e, t) := by
  change ExceptT.bind x f s = _
  unfold ExceptT.bind exec
  change (match x s with | (a, t) => ExceptT.bindCont f a t) = _
  rcases x s with ⟨r, t⟩
  cases r <;> rfl

theorem exec_map (f : α → β) (x : Fallible σ ε α) (s : σ) :
    (f <$> x).exec s = ((x.exec s).1.map f, (x.exec s).2) := by
  rw [map_eq_pure_bind, exec_bind]
  rcases x.exec s with ⟨r, t⟩
  cases r <;> rfl

/-- A handler sees the state its program stopped in. -/
theorem exec_tryCatch (x : Fallible σ ε α) (f : ε → Fallible σ ε α) (s : σ) :
    (tryCatch x f).exec s =
      match x.exec s with
      | (.ok a, t) => (.ok a, t)
      | (.error e, t) => (f e).exec t := by
  change ExceptT.tryCatch x f s = _
  unfold ExceptT.tryCatch exec
  change (match x s with
    | (r, t) => (match r with
      | .ok a => (pure (Except.ok a) : StateM σ (Except ε α))
      | .error e => f e) t) = _
  rcases x s with ⟨r, t⟩
  cases r <;> rfl

/-! ## Runs that succeed -/

/-- A sequence that succeeded ran both of its parts. -/
theorem exec_bind_ok {x : Fallible σ ε α} {f : α → Fallible σ ε β} {s t : σ} {b : β}
    (h : (x >>= f).exec s = (.ok b, t)) :
    ∃ a u, x.exec s = (.ok a, u) ∧ (f a).exec u = (.ok b, t) := by
  rw [exec_bind] at h
  cases hx : x.exec s with
  | mk r u =>
      rw [hx] at h
      cases r with
      | error e => cases h
      | ok a => exact ⟨a, u, rfl, h⟩

/-- A check that succeeded held and changed nothing. -/
theorem exec_check_ok {p : Prop} [Decidable p] {e : ε} {s t : σ} {u : Unit}
    (h : (check p e : Fallible σ ε Unit).exec s = (.ok u, t)) : p ∧ t = s := by
  rw [exec_check] at h
  split at h
  · next hp =>
      cases h
      exact ⟨hp, rfl⟩
  · cases h

/-- A sequence that succeeded passed the check in front of it. -/
theorem exec_check_bind_ok {p : Prop} [Decidable p] {e : ε} {f : Unit → Fallible σ ε β} {s t : σ}
    {b : β} (h : (check p e >>= f).exec s = (.ok b, t)) : p ∧ (f ()).exec s = (.ok b, t) := by
  obtain ⟨_, u, hcheck, hrest⟩ := exec_bind_ok h
  obtain ⟨hp, hu⟩ := exec_check_ok hcheck
  rw [hu] at hrest
  exact ⟨hp, hrest⟩

/-- A lookup that succeeded found its value and changed nothing. -/
theorem exec_found_ok {o : Option α} {e : ε} {s t : σ} {a : α}
    (h : (found o e : Fallible σ ε α).exec s = (.ok a, t)) : o = some a ∧ t = s := by
  cases o with
  | none => cases h
  | some b =>
      cases h
      exact ⟨rfl, rfl⟩

/-- A computation without state that succeeded changed nothing. -/
theorem exec_liftExcept_ok {x : Except ε α} {s t : σ} {a : α}
    (h : (liftExcept x : Fallible σ ε α).exec s = (.ok a, t)) : x = .ok a ∧ t = s := by
  rw [exec_liftExcept] at h
  cases h
  exact ⟨rfl, rfl⟩

/-! ## Step relations -/

/-- The run of the program from the state is a sequence of steps, whatever it returns. -/
def Follows (R : σ → σ → Prop) (x : Fallible σ ε α) (s : σ) : Prop :=
  Relation.ReflTransGen R s (x.exec s).2

namespace Follows

variable {R : σ → σ → Prop} {s : σ}

/-- What every step keeps, the run keeps. -/
theorem invariant {I : σ → Prop} {x : Fallible σ ε α} (h : Follows R x s)
    (hstep : ∀ t u, R t u → I t → I u) (hs : I s) : I (x.exec s).2 := by
  unfold Follows at h
  generalize (x.exec s).2 = t at h
  induction h with
  | refl => exact hs
  | tail _ hR ih => exact hstep _ _ hR ih

theorem mono {S : σ → σ → Prop} {x : Fallible σ ε α} (h : Follows R x s)
    (hRS : ∀ t u, R t u → S t u) : Follows S x s :=
  Relation.ReflTransGen.mono hRS _ _ h

/-- A run along a reflexive and transitive relation is one step of it. -/
theorem rel {x : Fallible σ ε α} (h : Follows R x s) (hrefl : ∀ t, R t t)
    (htrans : ∀ t u v, R t u → R u v → R t v) : R s (x.exec s).2 :=
  h.invariant (I := R s) (fun t u hR hs ↦ htrans s t u hs hR) (hrefl s)

theorem of_eq {x : Fallible σ ε α} (h : (x.exec s).2 = s) : Follows R x s := by
  unfold Follows
  rw [h]

theorem of_step {x : Fallible σ ε α} (h : R s (x.exec s).2) : Follows R x s := .single h

protected theorem pure (a : α) : Follows R (pure a : Fallible σ ε α) s := .refl

protected theorem throw (e : ε) : Follows R (throw e : Fallible σ ε α) s := .refl

protected theorem liftExcept (x : Except ε α) :
    Follows R (liftExcept x : Fallible σ ε α) s := by
  cases x <;> exact .refl

protected theorem modify {f : σ → σ} (h : R s (f s)) :
    Follows R (modify f : Fallible σ ε PUnit) s := .single h

/-- A sequence follows the steps of its parts. -/
theorem bind {x : Fallible σ ε α} {f : α → Fallible σ ε β} (hx : Follows R x s)
    (hf : ∀ a t, x.exec s = (.ok a, t) → Follows R (f a) t) : Follows R (x >>= f) s := by
  unfold Follows at hx hf ⊢
  rw [exec_bind]
  cases h : x.exec s with
  | mk r t =>
      rw [h] at hx
      cases r with
      | error e => exact hx
      | ok a => exact hx.trans (hf a t h)

theorem get_bind {f : σ → Fallible σ ε β} (h : Follows R (f s) s) :
    Follows R (get >>= f) s := h

theorem check_bind {p : Prop} [Decidable p] {e : ε} {f : Unit → Fallible σ ε β}
    (h : p → Follows R (f ()) s) : Follows R (check p e >>= f) s := by
  refine bind (of_eq ?_) fun u t hx ↦ ?_
  · rw [exec_check]
    split <;> rfl
  · obtain ⟨hp, rfl⟩ := exec_check_ok hx
    exact h hp

theorem found_bind {o : Option α} {e : ε} {f : α → Fallible σ ε β}
    (h : ∀ a, o = some a → Follows R (f a) s) : Follows R (found o e >>= f) s := by
  refine bind (of_eq ?_) fun a t hx ↦ ?_
  · cases o <;> rfl
  · obtain ⟨ho, rfl⟩ := exec_found_ok hx
    exact h a ho

theorem lift_bind {x : Except ε α} {f : α → Fallible σ ε β}
    (h : ∀ a, x = .ok a → Follows R (f a) s) : Follows R (liftExcept x >>= f) s := by
  refine bind (of_eq ?_) fun a t hx ↦ ?_
  · rw [exec_liftExcept]
  · obtain ⟨ho, rfl⟩ := exec_liftExcept_ok hx
    exact h a ho

/-- A handled program follows its own steps and then those of the handler. -/
theorem tryCatch {x : Fallible σ ε α} {f : ε → Fallible σ ε α} (hx : Follows R x s)
    (hf : ∀ e t, x.exec s = (.error e, t) → Follows R (f e) t) :
    Follows R (tryCatch x f) s := by
  unfold Follows at hx hf ⊢
  rw [exec_tryCatch]
  cases h : x.exec s with
  | mk r t =>
      rw [h] at hx
      cases r with
      | error e => exact hx.trans (hf e t h)
      | ok a => exact hx

end Follows

end Fallible

end OffloadFabric.Lib
