import Mathlib.Tactic.Linarith
import Mathlib.Tactic.Ring

/-!
# Fixed-width integer types

The values of a signed or unsigned integer type as integers in its range, the conversion that
reduces an integer to it, and the arithmetic of a language that promotes narrow operands to a
signed 32-bit type and leaves a signed overflow undefined.
-/

namespace OffloadFabric.Lib

/-- A fixed-width integer type: two's complement when signed, of one byte at least. -/
structure IntegerType where
  signed : Bool
  width : Nat
  byte_le : 8 ≤ width
  deriving DecidableEq

namespace IntegerType

theorem byte_le_word : 8 ≤ 64 := by decide

variable (T : IntegerType) {x : Int}

/-- The least value of the type. -/
def min : Int := if T.signed then -2 ^ (T.width - 1) else 0

/-- The greatest value of the type. -/
def max : Int := if T.signed then 2 ^ (T.width - 1) - 1 else 2 ^ T.width - 1

/-- The type represents the integer. -/
def Has (x : Int) : Prop := T.min ≤ x ∧ x ≤ T.max

instance (x : Int) : Decidable (T.Has x) := inferInstanceAs (Decidable (_ ∧ _))

/-- The conversion of an integer to the type. -/
def wrap (x : Int) : Int := if T.signed then x.bmod (2 ^ T.width) else x % 2 ^ T.width

/-- The type that narrow operands are promoted to. -/
def int : IntegerType := ⟨true, 32, by decide⟩

/-- The type an operation on operands of the type is carried out in. -/
def promoted : IntegerType := if T.width < int.width then int else T

/-- The result of an operation on operands of the type, given its exact value. A signed overflow
is undefined. -/
def arith (x : Int) : Option Int :=
  if T.promoted.signed ∧ ¬ T.promoted.Has x then none else some (T.promoted.wrap x)

/-! ## Ranges -/

/-- Half the number of values, at which the ranges end. -/
theorem two_pow_width : (2 : Int) ^ T.width = 2 * 2 ^ (T.width - 1) := by
  have hwidth := T.byte_le
  rw [← pow_succ']
  congr 1
  omega

theorem two_pow_le : (128 : Int) ≤ 2 ^ (T.width - 1) := by
  have hwidth := T.byte_le
  calc (128 : Int) = 2 ^ 7 := by norm_num
    _ ≤ 2 ^ (T.width - 1) := pow_le_pow_right₀ (by norm_num) (by omega)

theorem min_nonpos : T.min ≤ 0 := by
  have hhalf := T.two_pow_le
  unfold min
  split
  · omega
  · exact le_rfl

theorem max_pos : 0 < T.max := by
  have hhalf := T.two_pow_le
  have hwidth := T.two_pow_width
  unfold max
  split
  · omega
  · omega

variable {T}

theorem min_of_signed (h : T.signed = true) : T.min = -T.max - 1 := by
  unfold min max
  rw [if_pos h, if_pos h]
  ring

theorem min_of_unsigned (h : T.signed = false) : T.min = 0 := by
  unfold min
  rw [h]
  rfl

theorem has_zero (T : IntegerType) : T.Has 0 := ⟨T.min_nonpos, T.max_pos.le⟩

theorem has_max (T : IntegerType) : T.Has T.max := ⟨T.min_nonpos.trans T.max_pos.le, le_rfl⟩

theorem has_min (T : IntegerType) : T.Has T.min := ⟨le_rfl, T.min_nonpos.trans T.max_pos.le⟩

/-! ## Conversions -/

/-- A value of the type is converted to itself. -/
@[simp] theorem wrap_of_has (h : T.Has x) : T.wrap x = x := by
  have hwidth := T.two_pow_width
  obtain ⟨hmin, hmax⟩ := h
  unfold wrap
  unfold min at hmin
  unfold max at hmax
  split
  · next hsigned =>
    rw [if_pos hsigned] at hmin hmax
    apply Int.bmod_eq_of_le
    · push_cast
      omega
    · push_cast
      omega
  · next hsigned =>
    rw [if_neg hsigned] at hmin hmax
    exact Int.emod_eq_of_lt hmin (by omega)

/-- A conversion keeps the integer up to multiples of the number of values. -/
theorem dvd_wrap_sub (T : IntegerType) (x : Int) : (2 : Int) ^ T.width ∣ T.wrap x - x := by
  unfold wrap
  split
  · have hdvd := Int.dvd_bmod_sub_self (x := x) (m := 2 ^ T.width)
    push_cast at hdvd
    exact hdvd
  · exact (Int.dvd_sub_self_of_emod_eq rfl)

/-- A conversion is periodic. -/
theorem wrap_sub_two_pow (T : IntegerType) (x : Int) :
    T.wrap (x - 2 ^ T.width) = T.wrap x := by
  unfold wrap
  split
  · have hmul := Int.sub_mul_bmod_self_left x (2 ^ T.width) 1
    push_cast at hmul
    rwa [mul_one] at hmul
  · rw [Int.sub_emod_right]

/-- What a narrower type represents, a wider one of the same sign represents. -/
theorem Has.widen {S : IntegerType} (h : S.Has x) (hsigned : S.signed = T.signed)
    (hwidth : S.width ≤ T.width) : T.Has x := by
  obtain ⟨hmin, hmax⟩ := h
  have hhalf : (2 : Int) ^ (S.width - 1) ≤ 2 ^ (T.width - 1) :=
    pow_le_pow_right₀ (by norm_num) (by omega)
  have hfull : (2 : Int) ^ S.width ≤ 2 ^ T.width := pow_le_pow_right₀ (by norm_num) hwidth
  unfold Has min max at *
  rw [hsigned] at hmin hmax
  split
  · next h =>
    rw [if_pos h] at hmin hmax
    omega
  · next h =>
    rw [if_neg h] at hmin hmax
    omega

/-- What a type represents, a wider signed type represents. -/
theorem Has.widen_signed {S : IntegerType} (h : S.Has x) (hsigned : T.signed = true)
    (hwidth : S.width < T.width) : T.Has x := by
  cases hS : S.signed with
  | true => exact h.widen (by rw [hS, hsigned]) hwidth.le
  | false =>
    obtain ⟨hmin, hmax⟩ := h
    have hfull : (2 : Int) ^ S.width ≤ 2 ^ (T.width - 1) :=
      pow_le_pow_right₀ (by norm_num) (by omega)
    have hhalf := T.two_pow_le
    unfold Has min max at *
    rw [if_neg (by rw [hS]; decide)] at hmin hmax
    rw [if_pos hsigned, if_pos hsigned]
    omega

/-! ## Arithmetic -/

theorem Has.promoted (h : T.Has x) : T.promoted.Has x := by
  unfold IntegerType.promoted
  split
  · next hwidth => exact h.widen_signed rfl hwidth
  · exact h

/-- An operation whose exact value the promoted type represents has that value. -/
theorem arith_of_promoted (h : T.promoted.Has x) : T.arith x = some x := by
  unfold arith
  rw [if_neg fun hoverflow ↦ hoverflow.2 h, wrap_of_has h]

/-- An operation whose exact value the type represents has that value. -/
@[simp] theorem arith_of_has (h : T.Has x) : T.arith x = some x := arith_of_promoted h.promoted

/-- Also an operation that overflows is right up to multiples of the number of values. -/
theorem dvd_arith_sub {y : Int} (h : T.arith x = some y) : (2 : Int) ^ T.width ∣ y - x := by
  have hwidth : T.width ≤ T.promoted.width := by
    unfold IntegerType.promoted
    split
    · next hlt => exact hlt.le
    · exact le_rfl
  unfold arith at h
  split at h
  · cases h
  · cases h
    exact (pow_dvd_pow 2 hwidth).trans (dvd_wrap_sub _ x)

/-- A signed overflow of a type that is not promoted is undefined. -/
theorem arith_eq_none (hsigned : T.signed = true) (hwidth : ¬ T.width < int.width)
    (h : ¬ T.Has x) : T.arith x = none := by
  unfold arith IntegerType.promoted
  rw [if_neg hwidth, if_pos ⟨hsigned, h⟩]

end IntegerType

end OffloadFabric.Lib
