import OffloadFabric.Lib.Codec

/-!
# Byte formats and canonical readers

A layout says how a byte string is cut into fields before any value is read from it. A reader
is canonical for a writer and a layout when the writer puts back exactly the bytes that the
reader took, up to the padding that the layout marks.
-/

namespace OffloadFabric.Lib

/-- A byte format: fixed and sized fields, sequences and counted collections, and two-byte
numbers of which only the low byte is used. -/
inductive Layout where
  | fixed (n : Nat)
  | padded
  | sized
  | seq (l r : Layout)
  | counted (l : Layout)
  deriving DecidableEq, Repr

/-- A walk over the front of a byte string: the padding bytes passed and the bytes behind. -/
abbrev Walk := List UInt8 → Option (List UInt8 × List UInt8)

namespace Walk

/-- One walk behind another. -/
def seq (f g : Walk) : Walk := fun s ↦ do
  let (h, t) ← f s
  let (hs, u) ← g t
  some (h ++ hs, u)

/-- A walk a number of times. -/
def repeated (f : Walk) : Nat → Walk
  | 0 => fun s ↦ some ([], s)
  | n + 1 => f.seq (repeated f n)

end Walk

namespace Layout

/-- The walk over a byte string that a layout describes. -/
def padding : Layout → Walk
  | fixed n => fun s ↦ if n ≤ s.length then some ([], s.drop n) else none
  | padded => fun s ↦
      match s with
      | _ :: h :: t => some ([h], t)
      | _ => none
  | sized => fun s ↦
      let n := 4 + ofLe (s.take 4)
      if n ≤ s.length then some ([], s.drop n) else none
  | seq l r => l.padding.seq r.padding
  | counted l => fun s ↦
      if 4 ≤ s.length then l.padding.repeated (ofLe (s.take 4)) (s.drop 4) else none

theorem padding_fixed (p t : List UInt8) : padding (fixed p.length) (p ++ t) = some ([], t) := by
  unfold padding
  rw [if_pos (by simp), List.drop_left]

theorem padding_sized {p q t : List UInt8} (hp : p.length = 4) (hq : ofLe p = q.length) :
    padding sized (p ++ q ++ t) = some ([], t) := by
  have htake : (p ++ q ++ t).take 4 = p := by
    rw [List.append_assoc, ← hp, List.take_left]
  have hdrop : (p ++ q ++ t).drop (4 + q.length) = t := by
    rw [← hp, ← List.length_append, List.drop_left]
  unfold padding
  simp only [htake, hq, hdrop]
  rw [if_pos (by simp only [List.length_append]; omega)]

end Layout

/-! ## Digits -/

theorem ofLe_lt (bs : List UInt8) : ofLe bs < 256 ^ bs.length := by
  induction bs with
  | nil => simp [ofLe]
  | cons b bs ih =>
      have hb := b.toNat_lt
      rw [ofLe, List.length_cons, pow_succ]
      omega

/-- Writing the digits that were read gives the same digits. -/
theorem le_ofLe (bs : List UInt8) : le bs.length (ofLe bs) = bs := by
  induction bs with
  | nil => rfl
  | cons b bs ih =>
      have hb := b.toNat_lt
      have hlow : (b.toNat + 256 * ofLe bs) % 256 = b.toNat := by omega
      have hhigh : (b.toNat + 256 * ofLe bs) / 256 = ofLe bs := by omega
      rw [List.length_cons, ofLe, le, hlow, hhigh, ih, Nat.toUInt8_eq, UInt8.ofNat_toNat]

/-- A numbering whose partial inverse accepts only the numbers it gives out. -/
class LawfulCoded (α : Type) {ν : outParam Type} [Coded α ν] : Prop where
  code_of_ofCode? : ∀ {n : ν} {a : α}, Coded.ofCode? n = some a → Coded.code a = n

namespace Coder

variable {ε α β : Type}

/-! ## Bytes that are written again -/

/-- What stands between two byte strings is as long as what the writer writes, and the same
exactly when its padding is zero. -/
def Rewrites (f : Walk) (w : Coder Nat ε Unit) (s t : List UInt8) : Prop :=
  ∃ p q h, s = p ++ t ∧ q.length = p.length ∧ f s = some (h, t) ∧ (q = p ↔ ∀ x ∈ h, x = 0) ∧
    ∀ {c : Nat} {s' : List UInt8}, (s' ++ q).length ≤ c → w.run c s' = (.ok (), s' ++ q)

namespace Rewrites

variable {f g : Walk} {s t u : List UInt8} {w₁ w₂ : Coder Nat ε Unit}

theorem nothing (s : List UInt8) :
    Rewrites (Walk.repeated f 0) (pure () : Coder Nat ε Unit) s s := by
  refine ⟨[], [], [], rfl, rfl, rfl, by simp, fun _ ↦ ?_⟩
  rw [List.append_nil, run_pure]

theorem seq (h₁ : Rewrites f w₁ s t) (h₂ : Rewrites g w₂ t u) :
    Rewrites (f.seq g) (w₁ >>= fun _ ↦ w₂) s u := by
  obtain ⟨p₁, q₁, k₁, rfl, hlen₁, hk₁, hq₁, hw₁⟩ := h₁
  obtain ⟨p₂, q₂, k₂, rfl, hlen₂, hk₂, hq₂, hw₂⟩ := h₂
  refine ⟨p₁ ++ p₂, q₁ ++ q₂, k₁ ++ k₂, (List.append_assoc ..).symm, ?_, ?_, ?_, ?_⟩
  · simp only [List.length_append, hlen₁, hlen₂]
  · simp only [Walk.seq, hk₁, hk₂, Option.bind_eq_bind, Option.bind_some]
  · rw [List.append_eq_append_iff_of_size_eq_left hlen₁, hq₁, hq₂, List.forall_mem_append]
  · intro c s' hle
    rw [← List.append_assoc] at hle ⊢
    have hfst : (s' ++ q₁).length ≤ c := by
      rw [List.length_append] at hle
      omega
    rw [run_bind, hw₁ hfst]
    exact hw₂ hle

end Rewrites

/-- Every result of the reader has the property. -/
class Returns (g : Coder Nat ε β) (P : β → Prop) : Prop where
  of_run : ∀ {c : Nat} {s t : List UInt8} {b : β}, g.run c s = (.ok b, t) → P b

instance Returns.bind (g : Coder Nat ε α) (f : α → Coder Nat ε β) (P : β → Prop)
    [h : ∀ a, Returns (f a) P] : Returns (g >>= f) P where
  of_run hrun := by
    obtain ⟨a, u, -, hf⟩ := run_bind_ok hrun
    exact (h a).of_run hf

instance Returns.pure (π : β → α) (b : β) :
    Returns (Pure.pure b : Coder Nat ε β) (fun x ↦ π x = π b) where
  of_run hrun := by
    cases hrun
    rfl

instance Returns.throw (e : ε) (P : β → Prop) : Returns (throw e : Coder Nat ε β) P where
  of_run hrun := by cases hrun

instance Returns.ite (p : Prop) [Decidable p] (g₁ g₂ : Coder Nat ε β) (P : β → Prop)
    [h₁ : Returns g₁ P] [h₂ : Returns g₂ P] : Returns (if p then g₁ else g₂) P := by
  split
  · exact h₁
  · exact h₂

/-! ## Canonical readers -/

/-- The writer puts back what the reader took, up to the padding of the layout. -/
structure Canonical (ℓ : Layout) (c : Nat) (g : Coder Nat ε α) (w : α → Coder Nat ε Unit) :
    Prop where
  rewrites : ∀ {s t : List UInt8} {a : α}, g.run c s = (.ok a, t) → Rewrites ℓ.padding (w a) s t

namespace Canonical

variable {ℓ ℓ₁ ℓ₂ : Layout} {c : Nat} {g : Coder Nat ε α} {w : α → Coder Nat ε Unit}

/-- The first field of a record and the fields behind it. -/
theorem bind {f : α → Coder Nat ε β} {w' : β → Coder Nat ε Unit} {π : β → α}
    (hg : Canonical ℓ₁ c g w) (hf : ∀ a, Canonical ℓ₂ c (f a) w')
    [hπ : ∀ a, Returns (f a) fun b ↦ π b = a] :
    Canonical (ℓ₁.seq ℓ₂) c (g >>= f) fun b ↦ w (π b) >>= fun _ ↦ w' b := by
  constructor
  intro s t b h
  obtain ⟨a, u, hx, hy⟩ := run_bind_ok h
  obtain rfl := (hπ a).of_run hy
  exact (hg.rewrites hx).seq ((hf _).rewrites hy)

/-- A reader may go on without reading: a check of the value, or its rebuilding. -/
theorem checked {f : α → Coder Nat ε β} {π : β → α} (hg : Canonical ℓ c g w)
    (hf : ∀ {a s t b}, (f a).run c s = (.ok b, t) → t = s ∧ π b = a) :
    Canonical ℓ c (g >>= f) fun b ↦ w (π b) := by
  constructor
  intro s t b h
  obtain ⟨a, u, hx, hy⟩ := run_bind_ok h
  obtain ⟨rfl, rfl⟩ := hf hy
  exact hg.rewrites hx

/-- The last field of a record: its reader only rebuilds the value. -/
theorem last {f : α → β} {π : β → α} (hg : Canonical ℓ c g w) (hπ : ∀ a, π (f a) = a) :
    Canonical ℓ c (g >>= fun x ↦ Pure.pure (f x)) fun b ↦ w (π b) := by
  refine checked hg fun {a s t b} hrun ↦ ?_
  cases hrun
  exact ⟨rfl, hπ a⟩

/-- A list of known length is written again when each of its elements is. -/
theorem times (hg : Canonical ℓ c g w) {n : Nat} {s t : List UInt8} {xs : List α}
    (h : (times n g).run c s = (.ok xs, t)) :
    xs.length = n ∧ Rewrites (ℓ.padding.repeated n) (each w xs) s t := by
  induction n generalizing s xs with
  | zero =>
      cases h
      exact ⟨rfl, Rewrites.nothing _⟩
  | succ n ih =>
      obtain ⟨x, u, hx, h⟩ := run_bind_ok h
      obtain ⟨ys, v, hys, h⟩ := run_bind_ok h
      cases h
      obtain ⟨hlen, hrest⟩ := ih hys
      exact ⟨congrArg Nat.succ hlen, (hg.rewrites hx).seq hrest⟩

end Canonical

end Coder

end OffloadFabric.Lib
