import OffloadFabric.Lib.Fallible
import Mathlib.Data.UInt

/-!
# Sequential byte codecs

Writers append to a byte string and readers consume one; both are fallible programs with a
read-only environment, so an encoder and its decoder are sequences of the same shape. `Emits`
says what a successful writer appended and `Accepts` that a reader takes exactly one byte
string off the front of its input. A round trip of a sequence follows from the round trips of
its steps.
-/

namespace OffloadFabric.Lib

variable {ρ ε α β : Type}

/-- A closed numbering of an enumeration, with its partial inverse. -/
class Coded (α : Type) (ν : outParam Type) where
  code : α → ν
  ofCode? : ν → Option α
  ofCode?_code : ∀ a, ofCode? (code a) = some a

attribute [simp] Coded.ofCode?_code

/-- Little-endian digits of a number, least significant byte first. -/
def le : Nat → Nat → List UInt8
  | 0, _ => []
  | n + 1, v => (v % 256).toUInt8 :: le n (v / 256)

/-- The number with the given little-endian digits. -/
def ofLe : List UInt8 → Nat
  | [] => 0
  | b :: bs => b.toNat + 256 * ofLe bs

@[simp] theorem length_le (n v : Nat) : (le n v).length = n := by
  induction n generalizing v with
  | zero => rfl
  | succ n ih => simp only [le, List.length_cons, ih]

/-- Reading the digits back gives the number modulo the width. -/
theorem ofLe_le (n v : Nat) : ofLe (le n v) = v % 256 ^ n := by
  induction n generalizing v with
  | zero => simp only [le, ofLe, pow_zero, Nat.mod_one]
  | succ n ih =>
      have hb : ((v % 256).toUInt8).toNat = v % 256 := by
        rw [Nat.toUInt8_eq, UInt8.toNat_ofNat']
        omega
      rw [le, ofLe, ih, hb, pow_succ, Nat.mul_comm (256 ^ n) 256, Nat.mod_mul]

/-- A sequential codec program: the environment holds its size limit, the state its bytes. -/
abbrev Coder (ρ ε : Type) : Type → Type := ReaderT ρ (Fallible (List UInt8) ε)

namespace Coder

/-- Run a codec program in an environment from a byte string. -/
def run (x : Coder ρ ε α) (c : ρ) (s : List UInt8) : Except ε α × List UInt8 := (x c).exec s

@[simp] theorem run_pure (a : α) (c : ρ) (s : List UInt8) :
    (pure a : Coder ρ ε α).run c s = (.ok a, s) := rfl

@[simp] theorem run_throw (e : ε) (c : ρ) (s : List UInt8) :
    (throw e : Coder ρ ε α).run c s = (.error e, s) := rfl

@[simp] theorem run_read (c : ρ) (s : List UInt8) :
    (read : Coder ρ ε ρ).run c s = (.ok c, s) := rfl

@[simp] theorem run_get (c : ρ) (s : List UInt8) :
    (get : Coder ρ ε (List UInt8)).run c s = (.ok s, s) := rfl

@[simp] theorem run_set (t : List UInt8) (c : ρ) (s : List UInt8) :
    (set t : Coder ρ ε PUnit).run c s = (.ok ⟨⟩, t) := rfl

/-- Sequencing passes the bytes on and stops at the first error. -/
theorem run_bind (x : Coder ρ ε α) (f : α → Coder ρ ε β) (c : ρ) (s : List UInt8) :
    (x >>= f).run c s =
      match x.run c s with
      | (.ok a, t) => (f a).run c t
      | (.error e, t) => (.error e, t) := by
  change (x c >>= fun a ↦ f a c).exec s = _
  rw [Fallible.exec_bind]
  unfold run
  rcases (x c).exec s with ⟨r, t⟩
  cases r <;> rfl

/-- A sequence that succeeded ran both of its parts. -/
theorem run_bind_ok {x : Coder ρ ε α} {f : α → Coder ρ ε β} {c : ρ} {s t : List UInt8} {b : β}
    (h : (x >>= f).run c s = (.ok b, t)) :
    ∃ a u, x.run c s = (.ok a, u) ∧ (f a).run c u = (.ok b, t) := by
  rw [run_bind] at h
  cases hx : x.run c s with
  | mk r u =>
      rw [hx] at h
      cases r with
      | error e => cases h
      | ok a => exact ⟨a, u, rfl, h⟩

/-- Repeat a reader a fixed number of times, collecting its values. -/
def times (n : Nat) (g : Coder ρ ε α) : Coder ρ ε (List α) :=
  match n with
  | 0 => pure []
  | n + 1 => do
      let a ← g
      let as ← times n g
      pure (a :: as)

/-- Run a writer on each element in turn. -/
def each (w : α → Coder ρ ε Unit) : List α → Coder ρ ε Unit
  | [] => pure ()
  | a :: as => do
      w a
      each w as

/-! ## What a writer appends and a reader accepts -/

/-- A successful run of the writer appends bytes with the given property. -/
def Emits (w : Coder ρ ε Unit) (c : ρ) (P : List UInt8 → Prop) : Prop :=
  ∀ s t, w.run c s = (.ok (), t) → ∃ p, t = s ++ p ∧ P p

/-- The reader takes exactly these bytes off the front of any input and returns the value. -/
def Accepts (g : Coder ρ ε α) (c : ρ) (p : List UInt8) (a : α) : Prop :=
  ∀ rest, g.run c (p ++ rest) = (.ok a, rest)

/-- The reader refuses any input that starts with these bytes. -/
def Refuses (g : Coder ρ ε α) (c : ρ) (p : List UInt8) : Prop :=
  ∀ rest, ∃ e t, g.run c (p ++ rest) = (.error e, t)

/-- What the writer appends is what the reader takes, with the given value, when the condition
holds; the reader refuses it otherwise. -/
def RoundTrip (w : Coder ρ ε Unit) (cw : ρ) (g : Coder ρ ε α) (cr : ρ) (a : α) (P : Prop) :
    Prop :=
  Emits w cw fun p ↦ (P → Accepts g cr p a) ∧ (¬ P → Refuses g cr p)

theorem Emits.mono {w : Coder ρ ε Unit} {c : ρ} {P Q : List UInt8 → Prop}
    (h : Emits w c P) (hPQ : ∀ p, P p → Q p) : Emits w c Q := by
  intro s t hw
  obtain ⟨p, hp, hP⟩ := h s t hw
  exact ⟨p, hp, hPQ p hP⟩

theorem Accepts.pure (a : α) (c : ρ) : Accepts (pure a : Coder ρ ε α) c [] a :=
  fun _ ↦ rfl

theorem Accepts.bind {g : Coder ρ ε α} {f : α → Coder ρ ε β} {c : ρ} {p q : List UInt8}
    {a : α} {b : β} (hg : Accepts g c p a) (hf : Accepts (f a) c q b) :
    Accepts (g >>= f) c (p ++ q) b := by
  intro rest
  rw [run_bind, List.append_assoc, hg]
  exact hf rest

theorem Refuses.bind_left {g : Coder ρ ε α} {c : ρ} {p : List UInt8} (hg : Refuses g c p)
    (f : α → Coder ρ ε β) (q : List UInt8) : Refuses (g >>= f) c (p ++ q) := by
  intro rest
  obtain ⟨e, t, he⟩ := hg (q ++ rest)
  refine ⟨e, t, ?_⟩
  rw [run_bind, List.append_assoc, he]

theorem Refuses.bind_right {g : Coder ρ ε α} {f : α → Coder ρ ε β} {c : ρ} {p q : List UInt8}
    {a : α} (hg : Accepts g c p a) (hf : Refuses (f a) c q) : Refuses (g >>= f) c (p ++ q) := by
  intro rest
  obtain ⟨e, t, he⟩ := hf rest
  refine ⟨e, t, ?_⟩
  rw [run_bind, List.append_assoc, hg]
  exact he

namespace RoundTrip

variable {w w₁ w₂ : Coder ρ ε Unit} {g g₁ : Coder ρ ε α} {cw cr : ρ} {a : α} {b : β}
  {P Q : Prop}

theorem congr (h : RoundTrip w cw g cr a P) (hPQ : P ↔ Q) : RoundTrip w cw g cr a Q := by
  rwa [← propext hPQ]

theorem pure (a : α) :
    RoundTrip (Pure.pure () : Coder ρ ε Unit) cw (Pure.pure a) cr a True := by
  intro s t h
  cases h
  exact ⟨[], (List.append_nil s).symm, fun _ ↦ Accepts.pure a cr, fun h ↦ absurd trivial h⟩

/-- Sequencing composes round trips step by step. -/
theorem bind {f : α → Coder ρ ε β} (h₁ : RoundTrip w₁ cw g₁ cr a P)
    (h₂ : RoundTrip w₂ cw (f a) cr b Q) :
    RoundTrip (w₁ >>= fun _ ↦ w₂) cw (g₁ >>= f) cr b (P ∧ Q) := by
  intro s t h
  obtain ⟨u, m, hu, ht⟩ := run_bind_ok h
  obtain ⟨p, rfl, hp, hp'⟩ := h₁ s m hu
  obtain ⟨q, rfl, hq, hq'⟩ := h₂ _ t ht
  refine ⟨p ++ q, List.append_assoc s p q, fun ⟨hP, hQ⟩ ↦ (hp hP).bind (hq hQ), fun hPQ ↦ ?_⟩
  by_cases hP : P
  · exact Refuses.bind_right (hp hP) (hq' fun hQ ↦ hPQ ⟨hP, hQ⟩)
  · exact (hp' hP).bind_left f q

/-- A reader may go on without reading: a check of the value, or its rebuilding. -/
theorem checked {f : α → Coder ρ ε β} (h : RoundTrip w cw g cr a P)
    (hok : Q → ∀ s, (f a).run cr s = (.ok b, s))
    (herr : ¬ Q → ∀ s, ∃ e t, (f a).run cr s = (.error e, t)) :
    RoundTrip w cw (g >>= f) cr b (P ∧ Q) := by
  refine Emits.mono h fun p ⟨hp, hp'⟩ ↦ ⟨fun ⟨hP, hQ⟩ rest ↦ ?_, fun hPQ rest ↦ ?_⟩
  · rw [run_bind, hp hP rest]
    exact hok hQ rest
  · by_cases hP : P
    · obtain ⟨e, t, he⟩ := herr (fun hQ ↦ hPQ ⟨hP, hQ⟩) rest
      refine ⟨e, t, ?_⟩
      rw [run_bind, hp hP rest]
      exact he
    · obtain ⟨e, t, he⟩ := hp' hP rest
      refine ⟨e, t, ?_⟩
      rw [run_bind, he]

/-- A continuation that always succeeds without reading. -/
theorem followed {f : α → Coder ρ ε β} (h : RoundTrip w cw g cr a P)
    (hf : ∀ s, (f a).run cr s = (.ok b, s)) : RoundTrip w cw (g >>= f) cr b P :=
  (h.checked (fun _ ↦ hf) fun hn ↦ absurd trivial hn).congr (and_iff_left trivial)

/-- The last step of a record: its reader only rebuilds the value. -/
theorem last (h : RoundTrip w cw g cr a P) (f : α → β) :
    RoundTrip w cw (g >>= fun x ↦ Pure.pure (f x)) cr (f a) P :=
  h.followed fun _ ↦ rfl

/-- Element round trips give the round trip of a list of known length. -/
theorem list {e : α → Coder ρ ε Unit} {xs : List α} {R : α → Prop}
    (h : ∀ x, RoundTrip (e x) cw g cr x (R x)) :
    RoundTrip (each e xs) cw (times xs.length g) cr xs (∀ x ∈ xs, R x) := by
  induction xs with
  | nil => exact (pure []).congr (by simp)
  | cons x xs ih =>
      refine congr (bind (h x) (last ih (x :: ·))) ?_
      rw [List.forall_mem_cons]

/-- What a reader takes from written bytes is the written value, and the condition held. -/
theorem eq_of_run {s t rest u : List UInt8} {a' : α} (h : RoundTrip w cw g cr a P)
    (hw : w.run cw s = (.ok (), t)) :
    ∃ p, t = s ++ p ∧
      (g.run cr (p ++ rest) = (.ok a', u) ↔ P ∧ a' = a ∧ u = rest) := by
  obtain ⟨p, hp, ha, hr⟩ := h s t hw
  refine ⟨p, hp, fun hg ↦ ?_, ?_⟩
  · by_cases hP : P
    · rw [ha hP rest] at hg
      cases hg
      exact ⟨hP, rfl, rfl⟩
    · obtain ⟨e, v, he⟩ := hr hP rest
      rw [he] at hg
      cases hg
  · rintro ⟨hP, rfl, rfl⟩
    exact ha hP u

/-- Two values written as the same bytes are equal when one reader takes both back. -/
theorem inj {w' : Coder ρ ε Unit} {cw' : ρ} {a' : α} {p : List UInt8}
    (h : RoundTrip w cw g cr a P) (h' : RoundTrip w' cw' g cr a' Q) (hP : P) (hQ : Q)
    (hw : w.run cw [] = (.ok (), p)) (hw' : w'.run cw' [] = (.ok (), p)) : a = a' := by
  obtain ⟨q, hq, ha, -⟩ := h [] p hw
  obtain ⟨q', hq', ha', -⟩ := h' [] p hw'
  rw [List.nil_append] at hq hq'
  subst hq
  subst hq'
  have h1 := ha hP []
  have h2 := ha' hQ []
  rw [h1] at h2
  cases h2
  rfl

end RoundTrip

/-! ## Writers under a size limit -/

/-- What a writer appends depends neither on what stands before it nor on its limit, and what
was written once is written wherever it fits. -/
class Extends (w : Coder Nat ε Unit) : Prop where
  run_eq : ∀ {c : Nat} {s t : List UInt8}, w.run c s = (.ok (), t) →
    ∃ p, t = s ++ p ∧ (s ++ p).length ≤ max c s.length ∧
      ∀ {c' : Nat} {s' : List UInt8}, (s' ++ p).length ≤ c' →
        w.run c' s' = (.ok (), s' ++ p)

instance Extends.pure : Extends (Pure.pure () : Coder Nat ε Unit) where
  run_eq h := by
    cases h
    exact ⟨[], (List.append_nil _).symm, by simp, fun _ ↦ by rw [List.append_nil]; rfl⟩

instance Extends.throw (e : ε) : Extends (throw e : Coder Nat ε Unit) where
  run_eq h := by cases h

instance Extends.bind (w₁ w₂ : Coder Nat ε Unit) [h₁ : Extends w₁] [h₂ : Extends w₂] :
    Extends (w₁ >>= fun _ ↦ w₂) where
  run_eq {c s t} h := by
    obtain ⟨u, m, hu, ht⟩ := run_bind_ok h
    obtain ⟨p, rfl, hp, hp'⟩ := h₁.run_eq hu
    obtain ⟨q, rfl, hq, hq'⟩ := h₂.run_eq ht
    refine ⟨p ++ q, List.append_assoc s p q, ?_, fun {c' s'} hle ↦ ?_⟩
    · rw [← List.append_assoc]
      omega
    · rw [← List.append_assoc] at hle ⊢
      have hfst : (s' ++ p).length ≤ c' := by
        rw [List.length_append] at hle
        omega
      rw [run_bind, hp' hfst]
      exact hq' hle

instance Extends.ite (p : Prop) [Decidable p] (w₁ w₂ : Coder Nat ε Unit) [h₁ : Extends w₁]
    [h₂ : Extends w₂] : Extends (if p then w₁ else w₂) := by
  split
  · exact h₁
  · exact h₂

instance Extends.each (w : α → Coder Nat ε Unit) [h : ∀ a, Extends (w a)] (xs : List α) :
    Extends (each w xs) := by
  induction xs with
  | nil => exact Extends.pure
  | cons x xs ih => exact Extends.bind (w x) (Coder.each w xs)

end Coder

end OffloadFabric.Lib
