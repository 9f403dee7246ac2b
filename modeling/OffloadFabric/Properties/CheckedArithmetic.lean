import OffloadFabric.Base.CheckedArithmetic

/-!
# Checked arithmetic is exact

When the checked operations of every integer type answer exactly as the mathematical result asks:
additions, subtractions and multiplications always, conversions unless they widen a signed type,
and divisions rounded up within the bounds that their way over a sum leaves.
-/

namespace OffloadFabric.Checked

open Lib IntegerType

/-- The answer of a call whose exact result is given: the result where the type represents it, and
the untouched output argument elsewhere. -/
def exactAnswer (T : IntegerType) (result out : Int) : Bool × Int :=
  if T.Has result then (true, result) else (false, out)

/-! ## Additions, subtractions and multiplications -/

section

variable {T : IntegerType} {a b x out : Int}

/-- An operation that the type represents goes on with its exact value. -/
private theorem arith_bind {β : Type} (h : T.Has x) (f : Int → Option β) :
    (T.arith x >>= f) = f x := by
  rw [arith_of_has h]
  rfl

/-- A test of overflow that is exact for the sums. -/
theorem addWouldOverflow_eq (ha : T.Has a) (hb : T.Has b) :
    addWouldOverflow T a b = some (decide (¬ T.Has (a + b))) := by
  have hpos := T.max_pos
  obtain ⟨hamin, hamax⟩ := ha
  obtain ⟨hbmin, hbmax⟩ := hb
  unfold addWouldOverflow
  cases hsigned : T.signed with
  | true =>
    have hmin := min_of_signed hsigned
    by_cases hb0 : 0 < b
    · have hbound : T.Has (T.max - b) := ⟨by omega, by omega⟩
      simp only [if_true, if_pos hb0, arith_bind hbound, wrap_of_has hbound]
      congr 2
      unfold Has
      apply propext
      omega
    · have hbound : T.Has (T.min - b) := ⟨by omega, by omega⟩
      simp only [if_true, if_neg hb0, arith_bind hbound, wrap_of_has hbound]
      congr 2
      unfold Has
      apply propext
      omega
  | false =>
    have hmin := min_of_unsigned hsigned
    have hbound : T.Has (T.max - b) := ⟨by omega, by omega⟩
    simp only [Bool.false_eq_true, if_false, arith_bind hbound, wrap_of_has hbound]
    congr 2
    unfold Has
    apply propext
    omega

/-- A test of overflow that is exact for the differences. -/
theorem subWouldOverflow_eq (ha : T.Has a) (hb : T.Has b) :
    subWouldOverflow T a b = some (decide (¬ T.Has (a - b))) := by
  have hpos := T.max_pos
  obtain ⟨hamin, hamax⟩ := ha
  obtain ⟨hbmin, hbmax⟩ := hb
  unfold subWouldOverflow
  cases hsigned : T.signed with
  | true =>
    have hmin := min_of_signed hsigned
    by_cases hb0 : 0 < b
    · have hbound : T.Has (T.min + b) := ⟨by omega, by omega⟩
      simp only [if_true, if_pos hb0, arith_bind hbound, wrap_of_has hbound]
      congr 2
      unfold Has
      apply propext
      omega
    · have hbound : T.Has (T.max + b) := ⟨by omega, by omega⟩
      simp only [if_true, if_neg hb0, arith_bind hbound, wrap_of_has hbound]
      congr 2
      unfold Has
      apply propext
      omega
  | false =>
    have hmin := min_of_unsigned hsigned
    simp only [Bool.false_eq_true, if_false]
    change some _ = some _
    congr 2
    unfold Has
    apply propext
    omega

/-- A bound that is not negative is exceeded by a product exactly when its quotient by one factor
is exceeded by the other. -/
private theorem tdiv_lt_iff {m : Int} (hm : 0 ≤ m) (hb : 0 < b) : m.tdiv b < a ↔ m < a * b := by
  rw [Int.tdiv_eq_ediv_of_nonneg hm]
  exact Int.ediv_lt_iff_lt_mul hb

private theorem has_tdiv_of_pos (h : T.Has x) (hb : 0 < b) : T.Has (x.tdiv b) := by
  have hpos := T.max_pos
  have hneg := T.min_nonpos
  obtain ⟨hmin, hmax⟩ := h
  have habs := Int.natAbs_tdiv_le_natAbs x b
  rcases le_total 0 x with hx | hx
  · have hquotient := Int.tdiv_nonneg hx hb.le
    constructor <;> omega
  · have hquotient : 0 ≤ (-x).tdiv b := Int.tdiv_nonneg (by omega) hb.le
    rw [Int.neg_tdiv] at hquotient
    constructor <;> omega

/-- A test of overflow that is exact for the products. -/
theorem mulWouldOverflow_eq (ha : T.Has a) (hb : T.Has b) :
    mulWouldOverflow T a b = some (decide (¬ T.Has (a * b))) := by
  have hpos := T.max_pos
  unfold mulWouldOverflow
  by_cases hzero : a = 0 ∨ b = 0
  · have hproduct : a * b = 0 := Int.mul_eq_zero.mpr hzero
    rw [if_pos hzero, hproduct, decide_eq_false (not_not_intro T.has_zero)]
    rfl
  rw [not_or] at hzero
  obtain ⟨ha0, hb0⟩ := hzero
  rw [if_neg (by rw [not_or]; exact ⟨ha0, hb0⟩)]
  cases hsigned : T.signed with
  | true =>
    have hmin := min_of_signed hsigned
    simp only [if_true]
    rcases lt_or_gt_of_ne ha0 with hneg | hpos_a
    · rw [if_neg (by omega)]
      rcases lt_or_gt_of_ne hb0 with hneg_b | hpos_b
      · have hbound : T.Has (T.max.tdiv a) := by
          have hquotient := has_tdiv_of_pos (T := T) T.has_max (b := -a) (by omega)
          have hnonneg : 0 ≤ T.max.tdiv (-a) := Int.tdiv_nonneg hpos.le (by omega)
          rw [Int.tdiv_neg] at hquotient hnonneg
          constructor
          · have := hquotient.2
            omega
          · omega
        have hover : b < T.max.tdiv a ↔ T.max < a * b := by
          have hiff := tdiv_lt_iff (a := -b) (b := -a) hpos.le (by omega)
          rw [Int.tdiv_neg] at hiff
          have hproduct : -b * -a = a * b := by ring
          rw [hproduct] at hiff
          omega
        have hproduct : 0 < a * b := mul_pos_of_neg_of_neg hneg hneg_b
        rw [if_neg (by omega), arith_bind hbound]
        congr 2
        unfold Has
        apply propext
        omega
      · have hbound := has_tdiv_of_pos (T := T) T.has_min hpos_b
        have hover : a < T.min.tdiv b ↔ a * b < T.min := by
          have hiff := tdiv_lt_iff (m := -T.min) (a := -a) (by omega) hpos_b
          rw [Int.neg_tdiv] at hiff
          have hproduct : -a * b = -(a * b) := by ring
          rw [hproduct] at hiff
          omega
        have hproduct : a * b < 0 := mul_neg_of_neg_of_pos hneg hpos_b
        rw [if_pos hpos_b, arith_bind hbound]
        congr 2
        unfold Has
        apply propext
        omega
    · rw [if_pos hpos_a]
      rcases lt_or_gt_of_ne hb0 with hneg_b | hpos_b
      · have hbound := has_tdiv_of_pos (T := T) T.has_min hpos_a
        have hover : b < T.min.tdiv a ↔ a * b < T.min := by
          have hiff := tdiv_lt_iff (m := -T.min) (a := -b) (by omega) hpos_a
          rw [Int.neg_tdiv] at hiff
          have hproduct : -b * a = -(a * b) := by ring
          rw [hproduct] at hiff
          omega
        have hproduct : a * b < 0 := mul_neg_of_pos_of_neg hpos_a hneg_b
        rw [if_neg (by omega), arith_bind hbound]
        congr 2
        unfold Has
        apply propext
        omega
      · have hbound := has_tdiv_of_pos (T := T) T.has_max hpos_b
        have hover := tdiv_lt_iff (a := a) hpos.le hpos_b
        have hproduct : 0 < a * b := mul_pos hpos_a hpos_b
        rw [if_pos hpos_b, arith_bind hbound]
        congr 2
        unfold Has
        apply propext
        omega
  | false =>
    have hmin := min_of_unsigned hsigned
    have hpos_b : 0 < b := by
      have := hb.1
      omega
    have hbound := has_tdiv_of_pos (T := T) T.has_max hpos_b
    have hover := tdiv_lt_iff (a := a) hpos.le hpos_b
    have hproduct : 0 ≤ a * b := mul_nonneg (by have := ha.1; omega) hpos_b.le
    simp only [Bool.false_eq_true, if_false]
    rw [arith_bind hbound, wrap_of_has hbound]
    congr 2
    unfold Has
    apply propext
    omega

/-- An operation behind an exact test answers exactly. -/
private theorem answer_eq {test : Option Bool} {result : Int}
    (htest : test = some (decide (¬ T.Has result))) :
    (do
      if ← test then return (false, out)
      return (true, T.wrap (← T.arith result)) : Option (Bool × Int)) =
      some (exactAnswer T result out) := by
  rw [htest]
  unfold exactAnswer
  by_cases h : T.Has result
  · rw [decide_eq_false (not_not_intro h), if_pos h]
    change (do return (true, T.wrap (← T.arith result)) : Option (Bool × Int)) = _
    rw [arith_bind h, wrap_of_has h]
    rfl
  · rw [decide_eq_true h, if_neg h]
    rfl

theorem checkedAdd_exact (ha : T.Has a) (hb : T.Has b) :
    checkedAdd T a b out = some (exactAnswer T (a + b) out) :=
  answer_eq (addWouldOverflow_eq ha hb)

theorem checkedSub_exact (ha : T.Has a) (hb : T.Has b) :
    checkedSub T a b out = some (exactAnswer T (a - b) out) :=
  answer_eq (subWouldOverflow_eq ha hb)

theorem checkedMul_exact (ha : T.Has a) (hb : T.Has b) :
    checkedMul T a b out = some (exactAnswer T (a * b) out) :=
  answer_eq (mulWouldOverflow_eq ha hb)

end

/-! ## Conversions -/

section

variable {To From : IntegerType} {value out : Int}

/-- The conversion to an unsigned type cuts the ones of a greatest value off. -/
private theorem wrap_ones_lt {S : IntegerType} (h : S.signed = false) (hvalue : S.Has value)
    (n : Nat) : S.wrap (2 ^ n - 1) < value ↔ 2 ^ n - 1 < value := by
  obtain ⟨hmin, hmax⟩ := hvalue
  rw [min_of_unsigned h] at hmin
  unfold IntegerType.max at hmax
  unfold wrap
  rw [h] at hmax ⊢
  simp only [Bool.false_eq_true, if_false] at hmax ⊢
  rcases lt_or_ge n S.width with hn | hn
  · have hlt : (2 : Int) ^ n < 2 ^ S.width := pow_lt_pow_right₀ (by norm_num) hn
    have hpos : (0 : Int) < 2 ^ n := by positivity
    rw [Int.emod_eq_of_lt (by omega) (by omega)]
  · have hle : (2 : Int) ^ S.width ≤ 2 ^ n := pow_le_pow_right₀ (by norm_num) hn
    have hmod : ((2 : Int) ^ n - 1) % 2 ^ S.width = 2 ^ S.width - 1 := by
      have hpos : (0 : Int) < 2 ^ S.width := by positivity
      obtain ⟨k, hk⟩ := pow_dvd_pow (2 : Int) hn
      rw [hk, show (2 : Int) ^ S.width * k - 1 = 2 ^ S.width - 1 + 2 ^ S.width * (k - 1) by ring,
        Int.add_mul_emod_self_left, Int.emod_eq_of_lt (by omega) (by omega)]
    rw [hmod]
    omega

/-- A signed type has no bit of the least value of a wider one. -/
private theorem wrap_min_of_wider (hFrom : From.signed = true) (hTo : To.signed = true)
    (hwidth : From.width < To.width) : From.wrap To.min = 0 := by
  obtain ⟨k, hk⟩ := pow_dvd_pow (2 : Int) (show From.width ≤ To.width - 1 by omega)
  unfold wrap IntegerType.min
  rw [if_pos hFrom, if_pos hTo, hk]
  apply Int.bmod_eq_zero_of_dvd
  push_cast
  exact (Dvd.intro k rfl).neg_right

/-- A signed type has the ones of the greatest value of a wider one. -/
private theorem wrap_max_of_wider (hFrom : From.signed = true) (hTo : To.signed = true)
    (hwidth : From.width < To.width) : From.wrap To.max = -1 := by
  obtain ⟨k, hk⟩ := pow_dvd_pow (2 : Int) (show From.width ≤ To.width - 1 by omega)
  have hhalf := From.two_pow_le
  have hfull := From.two_pow_width
  unfold wrap IntegerType.max
  rw [if_pos hFrom, if_pos hTo, hk]
  have hcast : (2 : Int) ^ From.width = (2 ^ From.width : Nat) := by push_cast; rfl
  rw [hcast, Int.mul_sub_bmod_self_left]
  rw [hcast] at hfull
  apply Int.bmod_eq_of_le
  · omega
  · omega

/-- A conversion refuses exactly what its destination has not, but for a signed type that is
widened: it refuses every value of such a type. -/
theorem castRefuses_iff (h : From.Has value) : castRefuses To From value = true ↔
    ¬ To.Has value ∨ From.signed = true ∧ To.signed = true ∧ From.width < To.width := by
  have hTo : ∀ signed, To.signed = signed → To.max = if signed then 2 ^ (To.width - 1) - 1
      else 2 ^ To.width - 1 := by
    rintro signed rfl
    rfl
  unfold castRefuses
  cases hFrom : From.signed with
  | true =>
    cases hsigned : To.signed with
    | true =>
      simp only [if_true, true_and, decide_eq_true_eq]
      by_cases hwidth : From.width < To.width
      · simp only [wrap_min_of_wider hFrom hsigned hwidth, wrap_max_of_wider hFrom hsigned hwidth,
          hwidth, or_true, iff_true]
        omega
      · have hmin : From.Has To.min := To.has_min.widen (by rw [hFrom, hsigned]) (by omega)
        have hmax : From.Has To.max := To.has_max.widen (by rw [hFrom, hsigned]) (by omega)
        rw [wrap_of_has hmin, wrap_of_has hmax]
        unfold Has
        omega
    | false =>
      have hmin := min_of_unsigned hsigned
      simp only [Bool.true_eq_false, Bool.false_eq_true, if_false, if_true, false_and, and_false,
        or_false, decide_eq_true_eq]
      by_cases hneg : value < 0
      · simp only [hneg, true_or, true_iff]
        intro hhas
        have := hhas.1
        omega
      · have hunsigned : ({ From with signed := false } : IntegerType).Has value := by
          have hfull := From.two_pow_width
          have hhalf := From.two_pow_le
          have hmax := h.2
          unfold IntegerType.max at hmax
          rw [if_pos hFrom] at hmax
          exact ⟨show 0 ≤ value by omega, show value ≤ 2 ^ From.width - 1 by omega⟩
        rw [wrap_of_has hunsigned, hTo false hsigned, gt_iff_lt, if_neg Bool.false_ne_true,
          wrap_ones_lt rfl hunsigned]
        unfold Has
        rw [hTo false hsigned, if_neg Bool.false_ne_true]
        omega
  | false =>
    have hnonneg : 0 ≤ value := by
      have := h.1
      rwa [min_of_unsigned hFrom] at this
    cases hsigned : To.signed with
    | true =>
      have hmin := To.min_nonpos
      simp only [Bool.false_eq_true, if_false, false_and, or_false, decide_eq_true_eq]
      rw [hTo true hsigned, gt_iff_lt, if_pos rfl, wrap_ones_lt hFrom h]
      unfold Has
      rw [hTo true hsigned, if_pos rfl]
      omega
    | false =>
      have hmin := min_of_unsigned hsigned
      simp only [if_true, Bool.false_eq_true, false_and, or_false, decide_eq_true_eq]
      rw [hTo false hsigned, hmin, gt_iff_lt, if_neg Bool.false_ne_true, wrap_ones_lt hFrom h,
        wrap_of_has From.has_zero]
      unfold Has
      rw [hTo false hsigned, if_neg Bool.false_ne_true]
      omega

/-- **A conversion is exact unless it widens a signed type.** -/
theorem checkedCast_exact_iff (h : From.Has value) :
    checkedCast To From value out = some (exactAnswer To value out) ↔
      ¬ (From.signed = true ∧ To.signed = true ∧ From.width < To.width) := by
  have hrefuses : castRefuses To From value = true ↔
      ¬ To.Has value ∨ From.signed = true ∧ To.signed = true ∧ From.width < To.width :=
    castRefuses_iff h
  unfold checkedCast exactAnswer
  by_cases hwidened : From.signed = true ∧ To.signed = true ∧ From.width < To.width
  · have hhas : To.Has value := h.widen (hwidened.1.trans hwidened.2.1.symm) hwidened.2.2.le
    rw [if_pos (hrefuses.mpr (.inr hwidened)), if_pos hhas]
    simp only [Option.some.injEq, Prod.mk.injEq, Bool.false_eq_true, false_and, false_iff,
      not_not]
    exact hwidened
  · simp only [hwidened, not_false_eq_true, iff_true]
    by_cases hhas : To.Has value
    · rw [if_neg fun hrefused ↦ (hrefuses.mp hrefused).elim (fun hn ↦ hn hhas) hwidened,
        if_pos hhas, wrap_of_has hhas]
    · rw [if_pos (hrefuses.mpr (.inl hhas)), if_neg hhas]

end

/-! ## Divisions rounded up -/

section

variable {T : IntegerType} {num den out z : Int}

/-- The way of a division over the sum `num + (den - 1)` gives the quotient rounded up. A
positive divisor leaves room for the sum, which is not negative unless it is divisible; a negative
divisor divides neither the numerator nor its predecessor, and the sum is in range and not
positive. At the far end of the range, a quotient that no value represents is refused, and the
least divisor of a promoted type gives the quotient of zero. -/
def CeilCovered (T : IntegerType) (num den : Int) : Prop :=
  0 < den ∧ num + den - 1 ≤ T.max ∧ (0 ≤ num + den - 1 ∨ den ∣ num - 1) ∨
    den < 0 ∧ (T.min < den ∧ T.min ≤ num + den - 1 ∧ num ≤ 1 - den ∧ ¬ den ∣ num ∧
        ¬ den ∣ num - 1 ∨
      num = T.min ∧ den = -1 ∨ den = T.min ∧ num = 0 ∧ T.width < int.width)

private theorem ceil_eq_iff_of_pos (h : 0 < den) :
    ⌈(num : ℚ) / den⌉ = z ↔ z * den - den < num ∧ num ≤ z * den := by
  have hden : (0 : ℚ) < den := by exact_mod_cast h
  rw [Int.ceil_eq_iff, lt_div_iff₀ hden, div_le_iff₀ hden, sub_mul, one_mul]
  norm_cast

private theorem ceil_eq_iff_of_neg (h : den < 0) :
    ⌈(num : ℚ) / den⌉ = z ↔ z * den ≤ num ∧ num < z * den - den := by
  have hden : (den : ℚ) < 0 := by exact_mod_cast h
  rw [Int.ceil_eq_iff, lt_div_iff_of_neg hden, div_le_iff_of_neg hden, sub_mul, one_mul, and_comm]
  norm_cast

/-- A division adds first, and divides what the type has of the sum. -/
private theorem checkedCeilDiv_eq (hnum : T.Has num) (hden : den ≠ 0) (hpred : T.Has (den - 1)) :
    checkedCeilDiv T num den out =
      if T.Has (num + den - 1) then
        (T.arith ((num + den - 1).tdiv den)).map fun t ↦ (true, T.wrap t)
      else some (false, out) := by
  unfold checkedCeilDiv
  have hsum : num + (den - 1) = num + den - 1 := by ring
  rw [if_neg hden, arith_bind hpred, wrap_of_has hpred, checkedAdd_exact hnum hpred, hsum]
  unfold exactAnswer
  split
  · change (T.arith ((num + den - 1).tdiv den) >>= fun t ↦ some (true, T.wrap t)) = _
    cases T.arith ((num + den - 1).tdiv den) with
    | none => rfl
    | some t => rfl
  · rfl

/-- A truncated quotient of a number that is not positive is rounded up. -/
private theorem le_tdiv_mul {q : Int} (hq : q ≤ 0) : q ≤ q.tdiv den * den := by
  have hle := Int.mul_tdiv_self_le (k := den) (show 0 ≤ -q by omega)
  rw [Int.neg_tdiv, mul_neg, mul_comm] at hle
  omega

/-- With a positive divisor, a division is exact in the bounds of its sum. -/
private theorem checkedCeilDiv_of_pos (hnum : T.Has num) (hden : T.Has den) (hpos : 0 < den) :
    checkedCeilDiv T num den out = some (exactAnswer T ⌈(num : ℚ) / den⌉ out) ↔
      num + den - 1 ≤ T.max ∧ (0 ≤ num + den - 1 ∨ den ∣ num - 1) := by
  have hmin := T.min_nonpos
  have hmax := T.max_pos
  have hceil := fun z ↦ @ceil_eq_iff_of_pos num den z hpos
  generalize ⌈(num : ℚ) / den⌉ = r at hceil ⊢
  obtain ⟨hlow, hhigh⟩ := (hceil r).mp rfl
  have hr : T.Has r := by
    obtain ⟨hnmin, hnmax⟩ := hnum
    constructor
    · by_contra hr
      have : r * den ≤ r := by nlinarith
      omega
    · by_contra hr
      have : r ≤ r * den - den + 1 := by nlinarith
      omega
  have hpred : T.Has (den - 1) := ⟨by omega, by have := hden.2; omega⟩
  have hq : T.Has (num + den - 1) ↔ num + den - 1 ≤ T.max :=
    ⟨fun h ↦ h.2, fun h ↦ ⟨by have := hnum.1; omega, h⟩⟩
  rw [checkedCeilDiv_eq hnum hpos.ne' hpred]
  unfold exactAnswer
  rw [if_pos hr]
  by_cases hsum : num + den - 1 ≤ T.max
  · have hquotient := has_tdiv_of_pos (hq.mpr hsum) hpos
    rw [if_pos (hq.mpr hsum), arith_of_has hquotient, Option.map_some, wrap_of_has hquotient]
    simp only [Option.some.injEq, Prod.mk.injEq, true_and, hsum]
    rw [eq_comm, hceil]
    rcases le_or_gt 0 (num + den - 1) with hnonneg | hneg
    · simp only [hnonneg, true_or, iff_true]
      rw [Int.tdiv_eq_ediv_of_nonneg hnonneg]
      have hle := Int.ediv_mul_le (num + den - 1) hpos.ne'
      have hlt := Int.lt_ediv_mul (num + den - 1) hpos
      omega
    · -- the quotient is rounded up already, so the sum must be divisible
      have hle := @le_tdiv_mul den (num + den - 1) hneg.le
      have hdvd : den ∣ num - 1 ↔ den ∣ num + den - 1 := by
        rw [show num + den - 1 = num - 1 + den by ring]
        exact dvd_add_self_right.symm
      rw [hdvd]
      constructor
      · intro h
        refine .inr (Dvd.intro_left ((num + den - 1).tdiv den) ?_)
        omega
      · rintro (h | h)
        · omega
        · have heq := Int.tdiv_mul_cancel h
          omega
  · rw [if_neg (mt hq.mp hsum)]
    simp [hsum]

/-- The divisor `-1` gives the quotient of the least numerator only: its refusal. -/
private theorem checkedCeilDiv_neg_one (hnum : T.Has num) (hden : T.Has (-1)) :
    checkedCeilDiv T num (-1) out = some (exactAnswer T (-num) out) ↔ num = T.min := by
  have hhalf := T.two_pow_le
  have hwidth := T.two_pow_width
  have hsigned : T.min = -T.max - 1 := by
    cases hsigned : T.signed with
    | true => exact min_of_signed hsigned
    | false =>
      have hneg := hden.1
      rw [min_of_unsigned hsigned] at hneg
      omega
  have hmax : 127 ≤ T.max := by
    unfold IntegerType.max
    split <;> omega
  have hq : T.Has (num + -1 - 1) ↔ T.min ≤ num - 2 :=
    ⟨fun h ↦ by have := h.1; omega, fun h ↦ ⟨by omega, by have := hnum.2; omega⟩⟩
  have hneg : T.Has (-num) ↔ num ≠ T.min := by
    obtain ⟨hnmin, hnmax⟩ := hnum
    exact ⟨fun h ↦ by have := h.2; omega, fun h ↦ ⟨by omega, by omega⟩⟩
  rw [checkedCeilDiv_eq hnum (by decide) ⟨by omega, by omega⟩]
  unfold exactAnswer
  by_cases hsum : T.min ≤ num - 2
  · -- the quotient is too large by two
    rw [if_pos (hq.mpr hsum), if_pos (hneg.mpr (by omega))]
    constructor
    · intro h
      obtain ⟨y, hy, heq⟩ := Option.map_eq_some_iff.mp h
      have hdvd := dvd_add (T.dvd_wrap_sub y) (dvd_arith_sub hy)
      rw [(Prod.mk.inj heq).2, Int.tdiv_neg, Int.tdiv_one] at hdvd
      have htwo : -num - y + (y - -(num + -1 - 1)) = -2 := by ring
      rw [htwo, Int.dvd_neg] at hdvd
      have hle := Int.le_of_dvd (by decide) hdvd
      omega
    · intro h
      omega
  · rw [if_neg (mt hq.mp hsum)]
    by_cases h : num = T.min
    · rw [if_neg fun hhas ↦ hneg.mp hhas h]
      exact ⟨fun _ ↦ h, fun _ ↦ rfl⟩
    · rw [if_pos (hneg.mpr h)]
      simp [h]

/-- With a negative divisor that is neither `-1` nor the least, a division is exact where the
divisor divides neither the numerator nor its predecessor, and the sum is in range and not
positive. -/
private theorem checkedCeilDiv_of_neg (hnum : T.Has num) (hlt : den < -1) (hmin : T.min < den) :
    checkedCeilDiv T num den out = some (exactAnswer T ⌈(num : ℚ) / den⌉ out) ↔
      T.min ≤ num + den - 1 ∧ num ≤ 1 - den ∧ ¬ den ∣ num ∧ ¬ den ∣ num - 1 := by
  have hmax := T.max_pos
  have hsigned : T.min = -T.max - 1 := by
    cases hsigned : T.signed with
    | true => exact min_of_signed hsigned
    | false =>
      rw [min_of_unsigned hsigned] at hmin
      omega
  have hceil := fun z ↦ @ceil_eq_iff_of_neg num den z (by omega)
  generalize ⌈(num : ℚ) / den⌉ = r at hceil ⊢
  obtain ⟨hlow, hhigh⟩ := (hceil r).mp rfl
  have hr : T.Has r := by
    obtain ⟨hnmin, hnmax⟩ := hnum
    constructor
    · by_contra hr
      have : r * den ≥ -2 * r := by nlinarith
      omega
    · by_contra hr
      have : r * den ≤ -2 * r := by nlinarith
      have : r * den - den ≤ -2 * (r - 1) := by nlinarith
      omega
  have hpred : T.Has (den - 1) := ⟨by omega, by omega⟩
  have hq : T.Has (num + den - 1) ↔ T.min ≤ num + den - 1 :=
    ⟨fun h ↦ h.1, fun h ↦ ⟨h, by have := hnum.2; omega⟩⟩
  rw [checkedCeilDiv_eq hnum (by omega) hpred]
  unfold exactAnswer
  rw [if_pos hr]
  by_cases hsum : T.min ≤ num + den - 1
  · have hquotient : T.Has ((num + den - 1).tdiv den) := by
      have hle : (num + den - 1).natAbs / den.natAbs ≤ (num + den - 1).natAbs / 2 :=
        Nat.div_le_div_left (by omega) (by decide)
      have habs : ((num + den - 1).tdiv den).natAbs = (num + den - 1).natAbs / den.natAbs :=
        Int.natAbs_tdiv _ _
      have hhigh := (hq.mpr hsum).2
      constructor <;> omega
    rw [if_pos (hq.mpr hsum), arith_of_has hquotient, Option.map_some, wrap_of_has hquotient]
    simp only [Option.some.injEq, Prod.mk.injEq, true_and, hsum]
    rw [eq_comm, hceil]
    -- both signs turned, the sum is divided by a positive number
    obtain ⟨e, rfl⟩ : ∃ e, den = -e := ⟨-den, by ring⟩
    obtain ⟨q, rfl⟩ : ∃ q, num = 1 + e - q := ⟨1 + e - num, by ring⟩
    have hturn : 1 + e - q + -e - 1 = -q := by ring
    rw [hturn, Int.neg_tdiv_neg]
    have hzero : e ∣ 1 + e - q - 1 ↔ q % e = 0 := by
      rw [show 1 + e - q - 1 = e - q by ring, dvd_sub_right (dvd_refl e), Int.dvd_iff_emod_eq_zero]
    have hone : e ∣ 1 + e - q ↔ q % e = 1 := by
      have hmod : (1 : Int) % e = 1 := Int.emod_eq_of_lt (by decide) (by omega)
      have hcancel := @Int.emod_sub_cancel_right q e 1 1
      rw [sub_self, Int.zero_emod, hmod] at hcancel
      rw [show 1 + e - q = e - (q - 1) by ring, dvd_sub_right (dvd_refl e),
        Int.dvd_iff_emod_eq_zero, hcancel]
    rw [Int.neg_dvd, Int.neg_dvd, hzero, hone]
    rcases le_or_gt 0 q with hnonneg | hneg
    · rw [Int.tdiv_eq_ediv_of_nonneg hnonneg]
      have hdiv := Int.ediv_mul_add_emod q e
      have hmod := Int.emod_nonneg q (show e ≠ 0 by omega)
      have hmod' := Int.emod_lt_of_pos q (show 0 < e by omega)
      rw [mul_neg]
      omega
    · have hle := @le_tdiv_mul e q hneg.le
      rw [mul_neg]
      omega
  · rw [if_neg (mt hq.mp hsum)]
    simp [hsum]

/-- The least divisor gives the quotient of zero, where the type is promoted. -/
private theorem checkedCeilDiv_min (hnum : T.Has num) (hneg : T.min < 0) :
    checkedCeilDiv T num T.min out = some (exactAnswer T ⌈(num : ℚ) / T.min⌉ out) ↔
      num = 0 ∧ T.width < int.width := by
  have hmax := T.max_pos
  have hsigned : T.signed = true := by
    cases hsigned : T.signed with
    | true => rfl
    | false =>
      rw [min_of_unsigned hsigned] at hneg
      omega
  have hmin := min_of_signed hsigned
  by_cases hwidth : T.width < int.width
  · have hlow : -2 ^ 30 ≤ T.min := by
      have hpow : (2 : Int) ^ (T.width - 1) ≤ 2 ^ 30 :=
        pow_le_pow_right₀ (by norm_num) (by have : int.width = 32 := rfl; omega)
      unfold IntegerType.min
      rw [if_pos hsigned]
      omega
    have hpred : T.arith (T.min - 1) = some (T.min - 1) := by
      apply arith_of_promoted
      unfold promoted
      rw [if_pos hwidth]
      have hint : int.min = -2 ^ 31 ∧ int.max = 2 ^ 31 - 1 := ⟨rfl, rfl⟩
      exact ⟨by omega, by omega⟩
    have hwrap : T.wrap (T.min - 1) = T.max := by
      have hperiod : T.min - 1 = T.max - 2 ^ T.width := by
        rw [T.two_pow_width, hmin]
        unfold IntegerType.max
        rw [if_pos hsigned]
        ring
      rw [hperiod, wrap_sub_two_pow, wrap_of_has T.has_max]
    have hsum : T.Has (num + T.max) ↔ num ≤ 0 :=
      ⟨fun h ↦ by have := h.2; omega, fun h ↦ ⟨by have := hnum.1; omega, by omega⟩⟩
    have hceil := fun z ↦ @ceil_eq_iff_of_neg num T.min z hneg
    unfold checkedCeilDiv
    rw [if_neg hneg.ne, hpred]
    change (checkedAdd T num (T.wrap (T.min - 1)) 0 >>= _) = _ ↔ _
    rw [hwrap, checkedAdd_exact hnum T.has_max]
    unfold exactAnswer
    rcases le_or_gt num 0 with hnonpos | hpos
    · have hquotient : (num + T.max).tdiv T.min = 0 := by
        have hlow := hnum.1
        apply Int.natAbs_eq_zero.mp
        rw [Int.natAbs_tdiv]
        exact Nat.div_eq_of_lt (by omega)
      rw [if_pos (hsum.mpr hnonpos)]
      change (T.arith ((num + T.max).tdiv T.min) >>= fun t ↦ some (true, T.wrap t)) = _ ↔ _
      rw [hquotient, arith_bind T.has_zero, wrap_of_has T.has_zero]
      rcases eq_or_ne num 0 with rfl | hne
      · rw [(hceil 0).mpr (by omega), if_pos T.has_zero]
        simp [hwidth]
      · rw [(hceil 1).mpr (by have := hnum.1; omega), if_pos ⟨by omega, by omega⟩]
        simp [hne]
    · rw [if_neg (mt hsum.mp (by omega)), (hceil 0).mpr (by have := hnum.2; omega),
        if_pos T.has_zero]
      simp only [hpos.ne', false_and, iff_false]
      rintro ⟨⟩
  · have hnone : T.arith (T.min - 1) = none :=
      arith_eq_none hsigned hwidth fun h ↦ by have := h.1; omega
    unfold checkedCeilDiv
    rw [if_neg hneg.ne, hnone]
    simp only [hwidth, and_false, iff_false]
    rintro ⟨⟩

/-- **A division is exact in the bounds of its sum.** -/
theorem checkedCeilDiv_exact_iff (hnum : T.Has num) (hden : T.Has den) (h : den ≠ 0) :
    checkedCeilDiv T num den out = some (exactAnswer T ⌈(num : ℚ) / den⌉ out) ↔
      CeilCovered T num den := by
  have hhalf := T.two_pow_le
  have hmin : T.min < 0 → T.min ≤ -128 := by
    unfold IntegerType.min
    split <;> omega
  unfold CeilCovered
  rcases lt_or_gt_of_ne h with hneg | hpos
  · have hleast := hmin (by have := hden.1; omega)
    simp only [hneg, hneg.not_gt, false_and, false_or, true_and]
    rcases eq_or_ne den (-1) with rfl | hone
    · have hceil : ⌈(num : ℚ) / ((-1 : Int) : ℚ)⌉ = -num := by
        rw [ceil_eq_iff_of_neg hneg]
        omega
      rw [hceil, checkedCeilDiv_neg_one hnum hden]
      have hdvd : (-1 : Int) ∣ num := ⟨-num, by ring⟩
      omega
    · rcases eq_or_ne den T.min with rfl | hne
      · rw [checkedCeilDiv_min hnum hneg]
        omega
      · have hlt := hden.1
        rw [checkedCeilDiv_of_neg hnum (by omega) (by omega)]
        omega
  · simp only [hpos, hpos.not_gt, false_and, or_false, true_and]
    exact checkedCeilDiv_of_pos hnum hden hpos

end

/-! ## Calls -/

/-- The values of an integer type. -/
abbrev Value (T : IntegerType) : Type := { x : Int // T.Has x }

/-- A call of a checked operation at any type, a division with a divisor other than zero. -/
inductive Call where
  | add (T : IntegerType) (a b : Value T)
  | sub (T : IntegerType) (a b : Value T)
  | mul (T : IntegerType) (a b : Value T)
  | cast (To From : IntegerType) (value : Value From)
  | ceilDiv (T : IntegerType) (num den : Value T) (hden : den.1 ≠ 0)

namespace Call

/-- The type of the output argument. -/
def dest : Call → IntegerType
  | add T _ _ | sub T _ _ | mul T _ _ | cast T _ _ | ceilDiv T _ _ _ => T

/-- The exact mathematical result. -/
def exact : Call → Int
  | add _ a b => a.1 + b.1
  | sub _ a b => a.1 - b.1
  | mul _ a b => a.1 * b.1
  | cast _ _ value => value.1
  | ceilDiv _ num den _ => ⌈(num.1 : ℚ) / den.1⌉

/-- What the call answers with and leaves in its output argument. -/
def answer (out : Int) : Call → Option (Bool × Int)
  | add T a b => checkedAdd T a.1 b.1 out
  | sub T a b => checkedSub T a.1 b.1 out
  | mul T a b => checkedMul T a.1 b.1 out
  | cast To From value => checkedCast To From value.1 out
  | ceilDiv T num den _ => checkedCeilDiv T num.1 den.1 out

/-- The call answers exactly, whatever its output argument was. -/
def Exact (call : Call) : Prop :=
  ∀ out : Value call.dest, call.answer out.1 = some (exactAnswer call.dest call.exact out.1)

/-- The calls that answer exactly. -/
def Covered : Call → Prop
  | add _ _ _ | sub _ _ _ | mul _ _ _ => True
  | cast To From _ => ¬ (From.signed = true ∧ To.signed = true ∧ From.width < To.width)
  | ceilDiv T num den _ => CeilCovered T num.1 den.1

end Call

/-- **Checked arithmetic is exact but for two operations**: a conversion that widens a signed
type, and a division rounded up outside the bounds of its sum. -/
theorem checked_exact_iff (call : Call) : call.Exact ↔ call.Covered := by
  have hzero : Value call.dest := ⟨0, has_zero _⟩
  cases call with
  | add T a b => exact ⟨fun _ ↦ trivial, fun _ _ ↦ checkedAdd_exact a.2 b.2⟩
  | sub T a b => exact ⟨fun _ ↦ trivial, fun _ _ ↦ checkedSub_exact a.2 b.2⟩
  | mul T a b => exact ⟨fun _ ↦ trivial, fun _ _ ↦ checkedMul_exact a.2 b.2⟩
  | cast To From value =>
    constructor
    · intro h
      exact (checkedCast_exact_iff value.2).mp (h hzero)
    · intro h out
      exact (checkedCast_exact_iff value.2).mpr h
  | ceilDiv T num den hden =>
    constructor
    · intro h
      exact (checkedCeilDiv_exact_iff num.2 den.2 hden).mp (h hzero)
    · intro h out
      exact (checkedCeilDiv_exact_iff num.2 den.2 hden).mpr h

/-- The conversion of a signed octet to a signed type of two is refused, and so is half of the
greatest unsigned octet, rounded up. -/
theorem checked_not_exact :
    ¬ (Call.cast ⟨true, 16, by decide⟩ ⟨true, 8, by decide⟩ ⟨1, by decide⟩).Exact ∧
      ¬ (Call.ceilDiv ⟨false, 8, by decide⟩ ⟨255, by decide⟩ ⟨2, by decide⟩
        (by decide)).Exact := by
  constructor
  · intro h
    exact absurd (h ⟨0, by decide⟩) (by decide)
  · intro h
    exact absurd (h ⟨0, by decide⟩) (by decide +kernel)

/-! ## The instances of the runtime -/

/-- Unsigned integers of 64 bits. -/
def uint64 : IntegerType := ⟨false, 64, IntegerType.byte_le_word⟩

/-- What a call at 64 bits answers with, given what the runtime has of it. -/
def answerOf (out : Int) : Option UInt64 → Bool × Int
  | some c => (true, c.toNat)
  | none => (false, out)

private theorem has_uint64_iff {n : Nat} : uint64.Has n ↔ n < 2 ^ 64 := by
  change (0 : Int) ≤ n ∧ (n : Int) ≤ 2 ^ 64 - 1 ↔ _
  omega

private theorem has_toNat (a : UInt64) : uint64.Has a.toNat := has_uint64_iff.mpr a.toNat_lt

variable (a b : UInt64) (out : Int)

/-- The addition of the runtime is the one of 64 bits. -/
theorem checkedAdd_uint64 :
    checkedAdd uint64 a.toNat b.toNat out = some (answerOf out (OffloadFabric.checkedAdd a b)) := by
  rw [checkedAdd_exact (has_toNat a) (has_toNat b)]
  unfold exactAnswer
  rw [← Nat.cast_add]
  cases h : OffloadFabric.checkedAdd a b with
  | none =>
    have hlarge := checkedAdd_eq_none.mp h
    rw [if_neg (mt has_uint64_iff.mp (by omega))]
    rfl
  | some c =>
    obtain ⟨hlt, hc⟩ := checkedAdd_eq_some.mp h
    rw [if_pos (has_uint64_iff.mpr hlt), ← hc]
    rfl

/-- The subtraction of the runtime is the one of 64 bits. -/
theorem checkedSub_uint64 :
    checkedSub uint64 a.toNat b.toNat out = some (answerOf out (OffloadFabric.checkedSub a b)) := by
  rw [checkedSub_exact (has_toNat a) (has_toNat b)]
  unfold exactAnswer
  cases h : OffloadFabric.checkedSub a b with
  | none =>
    have hlt := checkedSub_eq_none.mp h
    rw [if_neg]
    · rfl
    · intro hhas
      have hnonneg : (0 : Int) ≤ _ := hhas.1
      omega
  | some c =>
    obtain ⟨hle, hc⟩ := checkedSub_eq_some.mp h
    have hcast : (a.toNat : Int) - b.toNat = c.toNat := by omega
    rw [hcast, if_pos (has_toNat c)]
    rfl

/-- The multiplication of the runtime is the one of 64 bits. -/
theorem checkedMul_uint64 :
    checkedMul uint64 a.toNat b.toNat out = some (answerOf out (OffloadFabric.checkedMul a b)) := by
  rw [checkedMul_exact (has_toNat a) (has_toNat b)]
  unfold exactAnswer
  rw [← Nat.cast_mul]
  cases h : OffloadFabric.checkedMul a b with
  | none =>
    have hlarge := checkedMul_eq_none.mp h
    rw [if_neg (mt has_uint64_iff.mp (by omega))]
    rfl
  | some c =>
    obtain ⟨hlt, hc⟩ := checkedMul_eq_some.mp h
    rw [if_pos (has_uint64_iff.mpr hlt), ← hc]
    rfl

end OffloadFabric.Checked
