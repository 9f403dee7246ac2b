import Mathlib.Analysis.SpecialFunctions.Pow.Real
import Mathlib.Data.BitVec
import Mathlib.Data.Nat.Nth
import Mathlib.Data.Nat.Prime.Basic
import Mathlib.Data.Int.ModEq

/-!
# The SHA-256 standard

The hash function in the terms of its standard: a message is a string of bits, a word is
thirty-two bits with addition modulo `2 ^ 32`, and the constants are read off the roots of
the first prime numbers. The standard speaks of messages shorter than `2 ^ 64` bits.
-/

namespace OffloadFabric.SecureHash

abbrev Word := BitVec 32

/-- The number `n` written with `width` bits, the most significant first. -/
def toBits : (width n : Nat) → List Bool
  | 0, _ => []
  | width + 1, n => n.testBit width :: toBits width n

/-- The number a string of bits denotes, the most significant first. -/
def ofBits (bits : List Bool) : Nat := bits.foldl (fun n b ↦ 2 * n + b.toNat) 0

/-- Rotation to the right. -/
def rotr (n : Nat) (x : Word) : Word := (x >>> n) ||| (x <<< (32 - n))

/-- Shift to the right. -/
def shr (n : Nat) (x : Word) : Word := x >>> n

/-! ## Functions and constants -/

/-- `Ch`. -/
def ch (x y z : Word) : Word := (x &&& y) ^^^ (~~~x &&& z)

/-- `Maj`. -/
def maj (x y z : Word) : Word := (x &&& y) ^^^ (x &&& z) ^^^ (y &&& z)

/-- `Σ₀`. -/
def bigSigma0 (x : Word) : Word := rotr 2 x ^^^ rotr 13 x ^^^ rotr 22 x

/-- `Σ₁`. -/
def bigSigma1 (x : Word) : Word := rotr 6 x ^^^ rotr 11 x ^^^ rotr 25 x

/-- `σ₀`. -/
def smallSigma0 (x : Word) : Word := rotr 7 x ^^^ rotr 18 x ^^^ shr 3 x

/-- `σ₁`. -/
def smallSigma1 (x : Word) : Word := rotr 17 x ^^^ rotr 19 x ^^^ shr 10 x

/-- The first thirty-two bits of the fractional part of a number. -/
noncomputable def fractionBits (x : ℝ) : Word := BitVec.ofNat 32 ⌊Int.fract x * 2 ^ 32⌋₊

/-- `K`: from the cube roots of the first sixty-four primes. -/
noncomputable def constant (t : Nat) : Word :=
  fractionBits ((Nat.nth Nat.Prime t : ℝ) ^ ((3 : ℕ) : ℝ)⁻¹)

/-- The initial hash value: from the square roots of the first eight primes. -/
noncomputable def initialWord (j : Nat) : Word :=
  fractionBits ((Nat.nth Nat.Prime j : ℝ) ^ ((2 : ℕ) : ℝ)⁻¹)

/-! ## Preprocessing -/

theorem exists_zeros (length : Nat) : ∃ k, length + 1 + k ≡ 448 [MOD 512] := by
  refine ⟨(length + 1) * 511 + 448, ?_⟩
  have : length + 1 + ((length + 1) * 511 + 448) = 448 + 512 * (length + 1) := by ring
  rw [this]
  exact Nat.add_mul_mod_self_left _ _ _

/-- The smallest number of zeros that fills the last block up to its length. -/
def zeros (length : Nat) : Nat := Nat.find (exists_zeros length)

/-- The padded message. -/
def pad (message : List Bool) : List Bool :=
  message ++ true :: List.replicate (zeros message.length) false ++ toBits 64 message.length

/-- Word `t` of block `i` of a padded message. -/
def messageWord (padded : List Bool) (i t : Nat) : Word :=
  BitVec.ofNat 32 (ofBits ((padded.drop (512 * i + 32 * t)).take 32))

/-! ## Hash computation -/

/-- Step 1: the message schedule of a block. -/
def schedule (block : Nat → Word) (t : Nat) : Word :=
  if t < 16 then block t
  else
    smallSigma1 (schedule block (t - 2)) + schedule block (t - 7) +
      smallSigma0 (schedule block (t - 15)) + schedule block (t - 16)

/-- The eight working variables, or the eight words of a hash value. -/
@[ext] structure Variables where
  (a b c d e f g h : Word)

/-- The words in their order. -/
def Variables.words (v : Variables) : List Word := [v.a, v.b, v.c, v.d, v.e, v.f, v.g, v.h]

/-- One turn of step 3. -/
def turn (k w : Word) (v : Variables) : Variables :=
  let t1 := v.h + bigSigma1 v.e + ch v.e v.f v.g + k + w
  let t2 := bigSigma0 v.a + maj v.a v.b v.c
  { h := v.g, g := v.f, f := v.e, e := v.d + t1, d := v.c, c := v.b, b := v.a, a := t1 + t2 }

/-- The working variables after `t` turns. -/
noncomputable def turns (w : Nat → Word) (v : Variables) : Nat → Variables
  | 0 => v
  | t + 1 => turn (constant t) (w t) (turns w v t)

/-- Step 4: the intermediate hash value. -/
def add (v w : Variables) : Variables where
  a := v.a + w.a
  b := v.b + w.b
  c := v.c + w.c
  d := v.d + w.d
  e := v.e + w.e
  f := v.f + w.f
  g := v.g + w.g
  h := v.h + w.h

noncomputable def initial : Variables where
  a := initialWord 0
  b := initialWord 1
  c := initialWord 2
  d := initialWord 3
  e := initialWord 4
  f := initialWord 5
  g := initialWord 6
  h := initialWord 7

/-- The hash value after `i` blocks of the padded message. -/
noncomputable def hash (padded : List Bool) : Nat → Variables
  | 0 => initial
  | i + 1 => add (turns (schedule (messageWord padded i)) (hash padded i) 64) (hash padded i)

/-- The message digest: the words of the last hash value, 256 bits. -/
noncomputable def sha256 (message : List Bool) : List Bool :=
  (hash (pad message) ((pad message).length / 512)).words.flatMap fun w ↦ toBits 32 w.toNat

/-! ## The recurrence of the schedule -/

theorem schedule_of_lt (block : Nat → Word) {t : Nat} (h : t < 16) :
    schedule block t = block t := by
  rw [schedule, if_pos h]

theorem schedule_of_le (block : Nat → Word) {t : Nat} (h : 16 ≤ t) :
    schedule block t =
      smallSigma1 (schedule block (t - 2)) + schedule block (t - 7) +
        smallSigma0 (schedule block (t - 15)) + schedule block (t - 16) := by
  rw [schedule, if_neg (by omega)]

/-! ## Bit strings -/

@[simp] theorem length_toBits (width n : Nat) : (toBits width n).length = width := by
  induction width with
  | zero => rfl
  | succ width ih => rw [toBits, List.length_cons, ih]

theorem ofBits_append (xs ys : List Bool) :
    ofBits (xs ++ ys) = ofBits xs * 2 ^ ys.length + ofBits ys := by
  have hfold : ∀ (ys : List Bool) (n : Nat),
      ys.foldl (fun n b ↦ 2 * n + b.toNat) n = n * 2 ^ ys.length + ofBits ys := by
    intro ys
    induction ys with
    | nil =>
      intro n
      simp [ofBits]
    | cons y ys ih =>
      intro n
      rw [ofBits, List.foldl_cons, List.foldl_cons, ih, ih, List.length_cons]
      ring
  rw [ofBits, List.foldl_append, hfold]
  rfl

theorem ofBits_toBits (width n : Nat) : ofBits (toBits width n) = n % 2 ^ width := by
  induction width with
  | zero => simp [toBits, ofBits, Nat.mod_one]
  | succ width ih =>
    rw [toBits, ← List.singleton_append, ofBits_append, ih, length_toBits, Nat.mod_pow_succ,
      ← Nat.toNat_testBit]
    simp only [ofBits, List.foldl_cons, List.foldl_nil]
    ring

/-- The bits of a number are those of its high part and those of its low part. -/
theorem toBits_add (high low n : Nat) :
    toBits (high + low) n = toBits high (n >>> low) ++ toBits low n := by
  induction high with
  | zero => simp [toBits]
  | succ high ih =>
    rw [Nat.add_right_comm, toBits, toBits, ih, Nat.testBit_shiftRight, Nat.add_comm high,
      List.cons_append]

theorem toBits_mod {width k : Nat} (n : Nat) (h : width ≤ k) :
    toBits width (n % 2 ^ k) = toBits width n := by
  induction width with
  | zero => rfl
  | succ width ih =>
    rw [toBits, toBits, ih (by omega), Nat.testBit_mod_two_pow, decide_eq_true (by omega),
      Bool.true_and]

theorem toBits_zero (width : Nat) : toBits width 0 = List.replicate width false := by
  induction width with
  | zero => rfl
  | succ width ih => rw [toBits, ih, Nat.zero_testBit, List.replicate_succ]

/-! ## The zeros of the padding -/

/-- A number of zeros below a block that fills it up is the smallest one. -/
theorem zeros_eq {length k : Nat} (fits : length + 1 + k ≡ 448 [MOD 512]) (lt : k < 512) :
    zeros length = k := by
  apply (Nat.find_eq_iff _).mpr
  refine ⟨fits, ?_⟩
  intro m hm hfits
  unfold Nat.ModEq at fits hfits
  omega

/-! ## The constants -/

/-- The entries of a list of the primes below a bound are the primes in their order. -/
theorem nth_prime_of_filter {n : Nat} {primes : List Nat}
    (h : (List.range n).filter Nat.Prime = primes) {t : Nat} (ht : t < primes.length) :
    Nat.nth Nat.Prime t = primes[t] := by
  have hall : ∀ n : Nat, ((List.range n).filter Nat.Prime).length = Nat.count Nat.Prime n ∧
      ∀ t, (ht : t < ((List.range n).filter Nat.Prime).length) →
        Nat.nth Nat.Prime t = ((List.range n).filter Nat.Prime)[t] := by
    intro n
    induction n with
    | zero => simp
    | succ n ih =>
      obtain ⟨hlen, hnth⟩ := ih
      by_cases hp : Nat.Prime n
      · have hsucc : (List.range (n + 1)).filter Nat.Prime =
            (List.range n).filter Nat.Prime ++ [n] := by
          simp [List.range_succ, List.filter_append, hp]
        refine ⟨by simp [hsucc, hlen, Nat.count_succ, hp], ?_⟩
        intro t ht
        simp only [hsucc]
        rcases Nat.lt_or_ge t ((List.range n).filter Nat.Prime).length with hlt | hge
        · rw [List.getElem_append_left hlt]
          exact hnth t hlt
        · have : t = Nat.count Nat.Prime n := by
            simp only [hsucc, List.length_append, List.length_singleton] at ht
            omega
          rw [List.getElem_append_right hge, List.getElem_singleton, this, Nat.nth_count hp]
      · have hsucc : (List.range (n + 1)).filter Nat.Prime = (List.range n).filter Nat.Prime := by
          simp [List.range_succ, List.filter_append, hp]
        refine ⟨by simp [hsucc, hlen, Nat.count_succ, hp], ?_⟩
        intro t ht
        simp only [hsucc] at ht ⊢
        exact hnth t ht
  subst h
  exact (hall n).2 t ht

/-- The fraction bits of a root, from a whole number whose power brackets the radicand. -/
theorem fractionBits_root {r p c k : Nat} (hr : r ≠ 0) (hk : k < 2 ^ 32)
    (low : (c * 2 ^ 32 + k) ^ r ≤ p * (2 ^ 32) ^ r)
    (high : p * (2 ^ 32) ^ r < (c * 2 ^ 32 + k + 1) ^ r) :
    fractionBits ((p : ℝ) ^ (r : ℝ)⁻¹) = BitVec.ofNat 32 k := by
  set y : ℝ := (p : ℝ) ^ (r : ℝ)⁻¹ with hy
  have hy0 : 0 ≤ y := Real.rpow_nonneg (Nat.cast_nonneg _) _
  have hpow : (y * 2 ^ 32) ^ r = p * (2 ^ 32) ^ r := by
    rw [mul_pow, hy, Real.rpow_inv_natCast_pow (Nat.cast_nonneg _) hr]
  have hlow : (c * 2 ^ 32 + k : ℝ) ≤ y * 2 ^ 32 := by
    apply le_of_pow_le_pow_left₀ hr (by positivity)
    rw [hpow]
    exact_mod_cast low
  have hhigh : y * 2 ^ 32 < c * 2 ^ 32 + k + 1 := by
    apply lt_of_pow_lt_pow_left₀ r (by positivity)
    rw [hpow]
    exact_mod_cast high
  have hk' : (k : ℝ) + 1 ≤ 2 ^ 32 := by exact_mod_cast hk
  have hfloor : ⌊y⌋ = (c : ℤ) := by
    rw [Int.floor_eq_iff]
    constructor
    · push_cast
      nlinarith [(Nat.cast_nonneg k : (0 : ℝ) ≤ k)]
    · push_cast
      nlinarith
  have hfract : Int.fract y = y - c := by
    rw [Int.fract, hfloor]
    push_cast
    rfl
  have hbits : ⌊Int.fract y * 2 ^ 32⌋₊ = k := by
    rw [hfract, Nat.floor_eq_iff (by nlinarith [(Nat.cast_nonneg k : (0 : ℝ) ≤ k)])]
    constructor <;> linarith
  rw [fractionBits, hbits]

end OffloadFabric.SecureHash
