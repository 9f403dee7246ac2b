import OffloadFabric.Lib.Fallible

/-!
# Simulations between fallible programs

Programs over two kinds of states agree at related states when they answer alike and end in
related states. Calls that agree wherever a guard on the first state holds agree throughout
every guarded run: an error ends a call, not the run.
-/

namespace OffloadFabric.Lib.Fallible

variable {σ τ ε α β ι : Type} {R : σ → τ → Prop}

/-- Two programs answer alike from a pair of states and end in related states. -/
def Agree (R : σ → τ → Prop) (x : Fallible σ ε α) (y : Fallible τ ε α) (s : σ) (t : τ) : Prop :=
  (x.exec s).1 = (y.exec t).1 ∧ R (x.exec s).2 (y.exec t).2

namespace Agree

variable {s : σ} {t : τ}

theorem of_exec {x : Fallible σ ε α} {y : Fallible τ ε α} {r : Except ε α} {s' : σ} {t' : τ}
    (hx : x.exec s = (r, s')) (hy : y.exec t = (r, t')) (h : R s' t') : Agree R x y s t := by
  unfold Agree
  rw [hx, hy]
  exact ⟨rfl, h⟩

/-- What follows programs that agree is only asked of their related ends. -/
theorem bind {x : Fallible σ ε α} {y : Fallible τ ε α} {f : α → Fallible σ ε β}
    {g : α → Fallible τ ε β} (hxy : Agree R x y s t)
    (hfg : ∀ a s' t', R s' t' → Agree R (f a) (g a) s' t') : Agree R (x >>= f) (y >>= g) s t := by
  obtain ⟨hanswer, hend⟩ := hxy
  rw [Agree, exec_bind, exec_bind]
  cases hx : x.exec s with
  | mk r s' =>
    cases hy : y.exec t with
    | mk r' t' =>
      rw [hx, hy] at hanswer hend
      cases hanswer
      cases r with
      | error e => exact ⟨rfl, hend⟩
      | ok a => exact hfg a s' t' hend

/-- A last step that changes the answer only. -/
theorem map {x : Fallible σ ε α} {y : Fallible τ ε α} (h : Agree R x y s t) (b : β) :
    Agree R (do let _ ← x; return b) (do let _ ← y; return b) s t :=
  h.bind fun _ _ _ hend ↦ ⟨rfl, hend⟩

/-- The second program prepares its state first. -/
theorem prepared {x : Fallible σ ε α} {y : Fallible τ ε α} {f : τ → τ}
    (h : Agree R x y s (f t)) : Agree R x (do modify f; y) s t := h

end Agree

/-! ## Runs of calls -/

/-- The answers of calls made one after another, and the state behind them. -/
def answers (call : ι → Fallible σ ε α) : List ι → σ → List (Except ε α) × σ
  | [], s => ([], s)
  | i :: rest, s =>
    let later := answers call rest ((call i).exec s).2
    (((call i).exec s).1 :: later.1, later.2)

/-- Every call of a run is made where its guard holds. -/
def Guarded (guard : σ → ι → Prop) (call : ι → Fallible σ ε α) : List ι → σ → Prop
  | [], _ => True
  | i :: rest, s => guard s i ∧ Guarded guard call rest ((call i).exec s).2

instance decidableGuarded (guard : σ → ι → Prop) [h : ∀ s i, Decidable (guard s i)]
    (call : ι → Fallible σ ε α) :
    (calls : List ι) → (s : σ) → Decidable (Guarded guard call calls s)
  | [], _ => inferInstanceAs (Decidable True)
  | i :: rest, s =>
    @instDecidableAnd _ _ (h s i) (decidableGuarded guard call rest ((call i).exec s).2)

/-- **Calls that agree where they are guarded answer alike in every guarded run.** -/
theorem answers_agree {call : ι → Fallible σ ε α} {call' : ι → Fallible τ ε α}
    {guard : σ → ι → Prop}
    (hcall : ∀ s t i, R s t → guard s i → Agree R (call i) (call' i) s t) {s : σ} {t : τ}
    (h : R s t) {calls : List ι} (hguarded : Guarded guard call calls s) :
    (answers call calls s).1 = (answers call' calls t).1 ∧
      R (answers call calls s).2 (answers call' calls t).2 := by
  induction calls generalizing s t with
  | nil => exact ⟨rfl, h⟩
  | cons i rest ih =>
    obtain ⟨hguard, hrest⟩ := hguarded
    obtain ⟨hanswer, hend⟩ := hcall s t i h hguard
    obtain ⟨hanswers, hends⟩ := ih hend hrest
    refine ⟨?_, hends⟩
    show _ :: _ = _ :: _
    rw [hanswer, hanswers]

/-- Calls that agree everywhere answer alike in every run. -/
theorem answers_agree_of_forall {call : ι → Fallible σ ε α} {call' : ι → Fallible τ ε α}
    (hcall : ∀ s t i, R s t → Agree R (call i) (call' i) s t) {s : σ} {t : τ} (h : R s t)
    (calls : List ι) :
    (answers call calls s).1 = (answers call' calls t).1 ∧
      R (answers call calls s).2 (answers call' calls t).2 := by
  have hguarded (s : σ) : Guarded (fun _ _ ↦ True) call calls s := by
    induction calls generalizing s with
    | nil => trivial
    | cons i rest ih => exact ⟨trivial, ih _⟩
  exact answers_agree (fun s t i hst _ ↦ hcall s t i hst) h (hguarded s)

/-! ## Inert calls -/

/-- The calls of a run that are not inert where they are made, with their answers. -/
def active (inert : σ → ι → Prop) [∀ s i, Decidable (inert s i)] (call : ι → Fallible σ ε α) :
    List ι → σ → List (ι × Except ε α)
  | [], _ => []
  | i :: rest, s =>
    let later := active inert call rest ((call i).exec s).2
    if inert s i then later else (i, ((call i).exec s).1) :: later

/-- **Inert calls can be left out of a run**: the others are answered alike without them, and end in
a related state. -/
theorem answers_active {S : σ → σ → Prop} {inert : σ → ι → Prop} [∀ s i, Decidable (inert s i)]
    {call : ι → Fallible σ ε α} (htrans : ∀ s t u, S s t → S t u → S s u)
    (hcall : ∀ s t i, S s t → Agree S (call i) (call i) s t)
    (hinert : ∀ s i, inert s i → S s ((call i).exec s).2) {s t : σ} (h : S s t) (calls : List ι) :
    (answers call ((active inert call calls t).map Prod.fst) s).1 =
        (active inert call calls t).map Prod.snd ∧
      S (answers call ((active inert call calls t).map Prod.fst) s).2
        (answers call calls t).2 := by
  induction calls generalizing s t with
  | nil => exact ⟨rfl, h⟩
  | cons i rest ih =>
    rw [active]
    by_cases hi : inert t i
    · rw [if_pos hi]
      exact ih (htrans _ _ _ h (hinert t i hi))
    · rw [if_neg hi]
      obtain ⟨hanswer, hend⟩ := hcall s t i h
      obtain ⟨hanswers, hends⟩ := ih hend
      refine ⟨?_, hends⟩
      show _ :: _ = _ :: _
      rw [hanswer, hanswers]

end OffloadFabric.Lib.Fallible
