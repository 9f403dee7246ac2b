import Mathlib.Data.List.TakeWhile
import OffloadFabric.Json.Grammar
import OffloadFabric.Json.Reader
import OffloadFabric.Properties.CheckedArithmetic

/-!
# White space, strings and numbers that are read

The parts of the reader without nested values against the grammar: what is read stood in front of
what is left and has the grammar's form, and what has that form is read.
-/

namespace OffloadFabric.JsonReader

open Json Lib

/-- The rules the reader goes by: zeros may lead a number, the byte `7F` must be escaped. -/
def lenient : Rules := { leadingZeros := true, rawDelete := false }

/-! ## White space -/

theorem mem_space {c : UInt8} :
    c ∈ ([0x20, 0x09, 0x0A, 0x0D] : Bytes) ↔ c = 0x20 ∨ c = 0x09 ∨ c = 0x0A ∨ c = 0x0D := by
  simp

/-- What is skipped is white space. -/
theorem skipWhitespace_split (text : Bytes) :
    ∃ space, Space space ∧ text = space ++ skipWhitespace text := by
  induction text with
  | nil => exact ⟨[], space_nil, rfl⟩
  | cons c text ih =>
    rw [skipWhitespace]
    split
    · next hc =>
      obtain ⟨space, hspace, htext⟩ := ih
      refine ⟨c :: space, ?_, ?_⟩
      · exact List.forall_mem_cons.mpr ⟨mem_space.mpr hc, hspace⟩
      · rw [List.cons_append, ← htext]
    · exact ⟨[], space_nil, rfl⟩

/-- All of the white space in front is skipped. -/
theorem skipWhitespace_append {space : Bytes} (h : Space space) (text : Bytes) :
    skipWhitespace (space ++ text) = skipWhitespace text := by
  induction space with
  | nil => rfl
  | cons c space ih =>
    obtain ⟨hc, hspace⟩ := List.forall_mem_cons.mp h
    rw [List.cons_append, skipWhitespace, if_pos (mem_space.mp hc), ih hspace]

theorem skipWhitespace_cons {c : UInt8} (h : c ∉ ([0x20, 0x09, 0x0A, 0x0D] : Bytes))
    (text : Bytes) : skipWhitespace (c :: text) = c :: text := by
  rw [skipWhitespace, if_neg (fun hc ↦ h (mem_space.mpr hc))]

@[simp] theorem skipWhitespace_skipWhitespace (text : Bytes) :
    skipWhitespace (skipWhitespace text) = skipWhitespace text := by
  induction text with
  | nil => rfl
  | cons c text ih =>
    rw [skipWhitespace]
    split
    · exact ih
    · next hc => rw [skipWhitespace, if_neg hc]

theorem skipWhitespace_eq_nil {text : Bytes} : skipWhitespace text = [] ↔ Space text := by
  constructor
  · intro h
    obtain ⟨space, hspace, htext⟩ := skipWhitespace_split text
    rw [h, List.append_nil] at htext
    rwa [htext]
  · intro h
    have := skipWhitespace_append h []
    rwa [List.append_nil] at this

/-! ## Strings -/

theorem nibble_eq_some {d : UInt8} {n : Nat} : nibble d = some n ↔ HexDigit d n := by
  constructor
  · intro h
    unfold nibble at h
    split at h
    · next hd =>
      cases h
      exact .decimal hd.1 hd.2
    · split at h
      · next hd =>
        cases h
        exact .lower hd.1 hd.2
      · split at h
        · next hd =>
          cases h
          exact .upper hd.1 hd.2
        · cases h
  · intro h
    unfold nibble
    cases h with
    | decimal hlow hhigh => rw [if_pos ⟨hlow, hhigh⟩]
    | lower hlow hhigh =>
      rw [if_neg, if_pos ⟨hlow, hhigh⟩]
      intro hd
      exact absurd (UInt8.le_trans hlow hd.2) (by decide)
    | upper hlow hhigh =>
      rw [if_neg, if_neg, if_pos ⟨hlow, hhigh⟩]
      · intro hd
        exact absurd (UInt8.le_trans hd.1 hhigh) (by decide)
      · intro hd
        exact absurd (UInt8.le_trans hlow hd.2) (by decide)

theorem unicodeValue_eq_some {d0 d1 d2 d3 : UInt8} {v : Nat} :
    unicodeValue [d0, d1, d2, d3] = some v ↔
      ∃ n0 n1 n2 n3, HexDigit d0 n0 ∧ HexDigit d1 n1 ∧ HexDigit d2 n2 ∧ HexDigit d3 n3 ∧
        v = ((n0 * 16 + n1) * 16 + n2) * 16 + n3 := by
  have hstep : ∀ {d : UInt8} {n : Nat} (value : Nat), HexDigit d n →
      value <<< 4 ||| n = value * 16 + n := by
    intro d n value h
    rw [← Nat.shiftLeft_add_eq_or_of_lt h.lt, Nat.shiftLeft_eq]
  constructor
  · intro h
    simp only [unicodeValue, List.foldlM_cons, List.foldlM_nil, Option.bind_eq_bind,
      Option.bind_eq_some_iff, Option.map_eq_some_iff, nibble_eq_some] at h
    obtain ⟨v0, ⟨n0, h0, rfl⟩, v1, ⟨n1, h1, rfl⟩, v2, ⟨n2, h2, rfl⟩, v3, ⟨n3, h3, rfl⟩, hv⟩ := h
    cases hv
    refine ⟨n0, n1, n2, n3, h0, h1, h2, h3, ?_⟩
    rw [hstep _ h3, hstep _ h2, hstep _ h1, hstep _ h0]
    simp
  · rintro ⟨n0, n1, n2, n3, h0, h1, h2, h3, rfl⟩
    simp only [unicodeValue, List.foldlM_cons, List.foldlM_nil, nibble_eq_some.mpr h0,
      nibble_eq_some.mpr h1, nibble_eq_some.mpr h2, nibble_eq_some.mpr h3, Option.map_some,
      Option.bind_eq_bind, Option.bind_some, hstep _ h3, hstep _ h2, hstep _ h1, hstep _ h0]
    simp

theorem simpleEscape_eq_some {e c : UInt8} : simpleEscape e = some c ↔ (e, c) ∈ escapes := by
  unfold simpleEscape escapes
  split_ifs <;> simp_all [eq_comm]

theorem push_eq_ok {c : UInt8} {read : Result (Bytes × Bytes)} {out rest : Bytes} :
    push c read = .ok (out, rest) ↔ ∃ tail, read = .ok (tail, rest) ∧ out = c :: tail := by
  unfold push
  rw [bind_eq_ok]
  constructor
  · rintro ⟨⟨tail, rest'⟩, hread, hout⟩
    cases hout
    exact ⟨tail, hread, rfl⟩
  · rintro ⟨tail, hread, rfl⟩
    exact ⟨_, hread, rfl⟩

/-- A quotation mark ends a string. -/
theorem parseChars_quote (text : Bytes) : parseChars (0x22 :: text) = .ok ([], text) := by
  rw [parseChars.eq_def]
  rfl

theorem parseChars_unicode (d0 d1 d2 d3 : UInt8) (text out rest : Bytes) :
    parseChars (0x5C :: 0x75 :: d0 :: d1 :: d2 :: d3 :: text) = .ok (out, rest) ↔
      ∃ v, unicodeValue [d0, d1, d2, d3] = some v ∧ v ≤ 0x7F ∧
        ∃ tail, parseChars text = .ok (tail, rest) ∧ out = v.toUInt8 :: tail := by
  rw [parseChars, if_neg (by decide), if_pos rfl]
  simp only [if_pos, present_bind_eq_ok, require_bind_eq_ok, push_eq_ok]

theorem parseChars_escape {e : UInt8} (h : e ≠ 0x75) (text out rest : Bytes) :
    parseChars (0x5C :: e :: text) = .ok (out, rest) ↔
      ∃ c, simpleEscape e = some c ∧
        ∃ tail, parseChars text = .ok (tail, rest) ∧ out = c :: tail := by
  have hslash : (0x5C : UInt8) ≠ 0x22 := by decide
  rw [parseChars.eq_def]
  simp only [if_neg hslash, ↓reduceIte, if_neg h, present_bind_eq_ok, push_eq_ok]

theorem parseChars_plain {c : UInt8} (hquote : c ≠ 0x22) (hslash : c ≠ 0x5C)
    (text out rest : Bytes) :
    parseChars (c :: text) = .ok (out, rest) ↔
      0x20 ≤ c ∧ c < 0x7F ∧ ∃ tail, parseChars text = .ok (tail, rest) ∧ out = c :: tail := by
  rw [parseChars.eq_def]
  simp only [if_neg hquote, if_neg hslash, require_bind_eq_ok, push_eq_ok]

/-- What is read of a string stood between its quotation marks. -/
theorem parseChars_sound {text out rest : Bytes} (h : parseChars text = .ok (out, rest)) :
    ∃ chars, Chars lenient chars out ∧ text = chars ++ 0x22 :: rest := by
  induction text using parseChars.induct generalizing out with
  | case1 => cases h
  | case2 text =>
    rw [parseChars_quote] at h
    cases h
    exact ⟨[], .nil, rfl⟩
  | case3 => cases h
  | case4 d0 d1 d2 d3 text _ ih =>
    obtain ⟨v, hv, hle, tail, htail, rfl⟩ := (parseChars_unicode ..).mp h
    obtain ⟨n0, n1, n2, n3, h0, h1, h2, h3, rfl⟩ := unicodeValue_eq_some.mp hv
    obtain ⟨chars, hchars, rfl⟩ := ih htail
    exact ⟨_, .unicode h0 h1 h2 h3 hle hchars, rfl⟩
  | case5 text hshort _ =>
    rw [parseChars, if_neg (by decide), if_pos rfl] at h
    · cases h
    · exact hshort
  | case6 e text he _ ih =>
    obtain ⟨c, hc, tail, htail, rfl⟩ := (parseChars_escape he ..).mp h
    obtain ⟨chars, hchars, rfl⟩ := ih htail
    exact ⟨_, .escape (simpleEscape_eq_some.mp hc) hchars, rfl⟩
  | case7 c text hquote hslash ih =>
    obtain ⟨hlow, hhigh, tail, htail, rfl⟩ := (parseChars_plain hquote hslash ..).mp h
    obtain ⟨chars, hchars, rfl⟩ := ih htail
    refine ⟨_, .plain hlow (UInt8.le_of_lt hhigh) hquote hslash ?_ hchars, rfl⟩
    intro hdelete
    rw [hdelete] at hhigh
    exact absurd hhigh (by decide)

/-- What stands between quotation marks is read. -/
theorem parseChars_complete {chars out : Bytes} (h : Chars lenient chars out) (rest : Bytes) :
    parseChars (chars ++ 0x22 :: rest) = .ok (out, rest) := by
  induction h with
  | nil => exact parseChars_quote rest
  | plain hlow hhigh hquote hslash hdelete _ ih =>
    refine (parseChars_plain hquote hslash ..).mpr ⟨hlow, ?_, _, ih, rfl⟩
    exact UInt8.lt_of_le_of_ne hhigh fun h ↦ absurd (hdelete h) (by decide)
  | @escape e c text out hescape _ ih =>
    have he : e ≠ 0x75 := by
      rintro rfl
      exact absurd (simpleEscape_eq_some.mpr hescape) (by simp [simpleEscape])
    exact (parseChars_escape he ..).mpr ⟨c, simpleEscape_eq_some.mpr hescape, _, ih, rfl⟩
  | unicode h0 h1 h2 h3 hle _ ih =>
    refine (parseChars_unicode ..).mpr ⟨_, unicodeValue_eq_some.mpr ?_, hle, _, ih, rfl⟩
    exact ⟨_, _, _, _, h0, h1, h2, h3, rfl⟩

theorem parseRawString_eq_ok {text out rest : Bytes} :
    parseRawString text = .ok (out, rest) ↔
      ∃ chars, Chars lenient chars out ∧ text = 0x22 :: chars ++ 0x22 :: rest := by
  constructor
  · intro h
    cases text with
    | nil => cases h
    | cons c text =>
      rw [parseRawString] at h
      split at h
      · next hc =>
        obtain ⟨chars, hchars, rfl⟩ := parseChars_sound h
        exact ⟨chars, hchars, by rw [hc]; rfl⟩
      · cases h
  · rintro ⟨chars, hchars, rfl⟩
    rw [List.cons_append, parseRawString, if_pos rfl]
    exact parseChars_complete hchars rest

/-! ## Numbers -/

/-- The digits of a number read on from a value. -/
def valueFrom (value : Nat) (digits : Bytes) : Nat :=
  digits.foldl (fun n d ↦ 10 * n + (d.toNat - 0x30)) value

theorem le_valueFrom (value : Nat) (digits : Bytes) : value ≤ valueFrom value digits := by
  induction digits generalizing value with
  | nil => exact Nat.le_refl _
  | cons d digits ih =>
    have := ih (10 * value + (d.toNat - 0x30))
    rw [valueFrom, List.foldl_cons]
    change _ ≤ valueFrom _ digits
    omega

theorem valueFrom_cons (value : Nat) (d : UInt8) (digits : Bytes) :
    valueFrom value (d :: digits) = valueFrom (10 * value + (d.toNat - 0x30)) digits :=
  List.foldl_cons ..

theorem readUnsigned_cons {value v : UInt64} {d : UInt8} {digits : Bytes} :
    readUnsigned value (d :: digits) = some v ↔
      ∃ scaled, checkedMul value 10 = some scaled ∧
        ∃ next, checkedAdd scaled (d - 0x30).toUInt64 = some next ∧
          readUnsigned next digits = some v := by
  rw [readUnsigned]
  simp only [Option.bind_eq_bind, Option.bind_eq_some_iff]

/-- The digits are read exactly where their number fits. -/
theorem readUnsigned_eq_some {digits : Bytes} (hdigits : ∀ d ∈ digits, 0x30 ≤ d ∧ d ≤ 0x39)
    (value v : UInt64) :
    readUnsigned value digits = some v ↔
      valueFrom value.toNat digits < 2 ^ 64 ∧ v.toNat = valueFrom value.toNat digits := by
  induction digits generalizing value with
  | nil =>
    have hlt := value.toNat_lt
    rw [readUnsigned, Option.some.injEq, ← UInt64.toNat_inj]
    exact ⟨fun h ↦ ⟨hlt, h.symm⟩, fun h ↦ h.2.symm⟩
  | cons d digits ih =>
    obtain ⟨⟨hlow, hhigh⟩, hdigits⟩ := List.forall_mem_cons.mp hdigits
    have hdigit : (d - 0x30).toUInt64.toNat = d.toNat - 0x30 := by
      rw [UInt8.toNat_toUInt64, UInt8.toNat_sub_of_le _ _ hlow]
      rfl
    have hten : (10 : UInt64).toNat = 10 := rfl
    have hle := le_valueFrom (10 * value.toNat + (d.toNat - 0x30)) digits
    rw [readUnsigned_cons, valueFrom_cons]
    constructor
    · rintro ⟨scaled, hscaled, next, hnext, hread⟩
      obtain ⟨-, hscaled⟩ := checkedMul_eq_some.mp hscaled
      obtain ⟨-, hnext⟩ := checkedAdd_eq_some.mp hnext
      have := (ih hdigits next).mp hread
      rwa [hnext, hscaled, hdigit, hten, Nat.mul_comm value.toNat] at this
    · rintro ⟨hlt, hv⟩
      have hscaled : checkedMul value 10 = some (value * 10) := by
        apply checkedMul_eq_some.mpr
        rw [hten, UInt64.toNat_mul, hten]
        omega
      have hmul : (value * 10).toNat = 10 * value.toNat := by
        rw [UInt64.toNat_mul, hten]
        omega
      have hnext : checkedAdd (value * 10) (d - 0x30).toUInt64 =
          some (value * 10 + (d - 0x30).toUInt64) := by
        apply checkedAdd_eq_some.mpr
        rw [UInt64.toNat_add, hmul, hdigit]
        omega
      have hadd : (value * 10 + (d - 0x30).toUInt64).toNat =
          10 * value.toNat + (d.toNat - 0x30) := by
        rw [UInt64.toNat_add, hmul, hdigit]
        omega
      refine ⟨_, hscaled, _, hnext, (ih hdigits _).mpr ?_⟩
      rw [hadd]
      exact ⟨hlt, hv⟩

theorem has_int64 {i : Int} :
    int64.Has i ↔ -9223372036854775808 ≤ i ∧ i ≤ 9223372036854775807 := by
  simp [IntegerType.Has, IntegerType.min, IntegerType.max, int64]

theorem appendNegative_eq_some {value v : Int} {d : UInt8} (hlow : 0x30 ≤ d) (hhigh : d ≤ 0x39)
    (hvalue : int64.Has value) :
    appendNegative value (d.toNat - 0x30) = some v ↔
      int64.Has (value * 10) ∧ int64.Has v ∧ v = value * 10 - (d.toNat - 0x30) := by
  have hten : int64.Has 10 := by
    rw [has_int64]
    omega
  have hdigit : int64.Has (d.toNat - 0x30) := by
    have hlow : 0x30 ≤ d.toNat := hlow
    have hhigh : d.toNat ≤ 0x39 := hhigh
    rw [has_int64]
    omega
  rw [appendNegative, Checked.checkedMul_exact hvalue hten, Checked.exactAnswer]
  by_cases hmul : int64.Has (value * 10)
  · simp only [if_pos hmul]
    rw [Checked.checkedSub_exact hmul hdigit, Checked.exactAnswer]
    by_cases hsub : int64.Has (value * 10 - (d.toNat - 0x30))
    · simp only [if_pos hsub, Option.some.injEq]
      constructor
      · rintro rfl
        exact ⟨hmul, hsub, rfl⟩
      · rintro ⟨-, -, rfl⟩
        rfl
    · simp only [if_neg hsub, reduceCtorEq, false_iff]
      rintro ⟨-, hv, rfl⟩
      exact hsub hv
  · simp only [if_neg hmul, reduceCtorEq, false_iff]
    rintro ⟨h, -⟩
    exact hmul h

/-- The digits of a negative number are read exactly where it fits. -/
theorem readNegative_eq_some {digits : Bytes} (hdigits : ∀ d ∈ digits, 0x30 ≤ d ∧ d ≤ 0x39)
    {n : Nat} (hn : n ≤ 2 ^ 63) (v : Int) :
    readNegative (-n) digits = some v ↔ valueFrom n digits ≤ 2 ^ 63 ∧ v = -valueFrom n digits := by
  induction digits generalizing n with
  | nil =>
    rw [readNegative, Option.some.injEq]
    exact ⟨fun h ↦ ⟨hn, h.symm⟩, fun h ↦ h.2.symm⟩
  | cons d digits ih =>
    obtain ⟨⟨hlow, hhigh⟩, hdigits⟩ := List.forall_mem_cons.mp hdigits
    have hlow' : 0x30 ≤ d.toNat := hlow
    have hle := le_valueFrom (10 * n + (d.toNat - 0x30)) digits
    have hnext : (-n * 10 - (d.toNat - 0x30) : Int) = -((10 * n + (d.toNat - 0x30) : Nat) : Int) := by
      omega
    have hvalue : int64.Has (-n) := by
      rw [has_int64]
      omega
    rw [readNegative, valueFrom_cons]
    simp only [Option.bind_eq_bind, Option.bind_eq_some_iff,
      appendNegative_eq_some hlow hhigh hvalue, hnext, has_int64]
    constructor
    · rintro ⟨next, ⟨hmul, hsub, rfl⟩, hread⟩
      exact (ih hdigits (by omega)).mp hread
    · rintro ⟨hlt, hv⟩
      exact ⟨_, ⟨by omega, by omega, rfl⟩, (ih hdigits (by omega)).mpr ⟨hlt, hv⟩⟩

/-- What may follow a value: white space, a comma, a closing bracket or the end. -/
def Delimited (rest : Bytes) : Prop :=
  ∀ c ∈ rest.head?, c ∈ ([0x20, 0x09, 0x0A, 0x0D, 0x2C, 0x5D, 0x7D] : Bytes)

theorem isDigit_iff {c : UInt8} : isDigit c = true ↔ 0x30 ≤ c ∧ c ≤ 0x39 := by
  simp [isDigit]

/-- The digits of a number end where a delimiter stands. -/
theorem takeWhile_digits {digits rest : Bytes} (h : ∀ d ∈ digits, 0x30 ≤ d ∧ d ≤ 0x39)
    (hrest : Delimited rest) :
    (digits ++ rest).takeWhile isDigit = digits ∧ (digits ++ rest).dropWhile isDigit = rest := by
  have hdigits : ∀ d ∈ digits, isDigit d = true := fun d hd ↦ isDigit_iff.mpr (h d hd)
  rw [List.takeWhile_append_of_pos hdigits, List.dropWhile_append_of_pos hdigits]
  cases rest with
  | nil => simp
  | cons c rest =>
    have hc : isDigit c = false := by
      have hmem := hrest c (by simp)
      simp only [List.mem_cons, List.not_mem_nil, or_false] at hmem
      rcases hmem with rfl | rfl | rfl | rfl | rfl | rfl | rfl <;> decide
    simp [hc]

/-- A delimiter is none of the bytes that would go on with a number that is no integer. -/
theorem Delimited.integer {rest : Bytes} (h : Delimited rest) :
    rest.head? ≠ some 0x2E ∧ rest.head? ≠ some 0x65 ∧ rest.head? ≠ some 0x45 := by
  refine ⟨?_, ?_, ?_⟩
  all_goals
    intro hhead
    exact absurd (h _ hhead) (by decide)

theorem digits_lenient {digits : Bytes} (hne : digits ≠ [])
    (h : ∀ d ∈ digits, 0x30 ≤ d ∧ d ≤ 0x39) : Digits lenient digits where
  ne_nil := hne
  digit := h
  zero _ := .inl rfl

theorem digit_of_takeWhile {text : Bytes} :
    ∀ d ∈ text.takeWhile isDigit, 0x30 ≤ d ∧ d ≤ 0x39 := by
  intro d hd
  exact isDigit_iff.mp (List.mem_takeWhile_imp hd)

/-- A number that is read stood in front. -/
theorem parseNumber_sound {text : Bytes} {v : JsonValue} {rest : Bytes}
    (h : parseNumber text = .ok (v, rest)) : ∃ literal, Number lenient literal v ∧
      text = literal ++ rest := by
  rw [parseNumber] at h
  simp only [require_bind_eq_ok] at h
  by_cases hsign : text.head? = some 0x2D
  · obtain ⟨text, rfl⟩ : ∃ tail, text = 0x2D :: tail := by
      cases text with
      | nil => cases hsign
      | cons c tail =>
        cases hsign
        exact ⟨tail, rfl⟩
    simp only [List.head?_cons, ↓reduceIte, List.drop_one, List.tail_cons,
      present_bind_eq_ok] at h
    obtain ⟨hne, -, value, hread, hv⟩ := h
    cases hv
    obtain ⟨hfits, rfl⟩ := (readNegative_eq_some digit_of_takeWhile (Nat.zero_le _) value).mp hread
    refine ⟨_, .negative (digits_lenient hne digit_of_takeWhile) hfits, ?_⟩
    rw [List.cons_append, List.takeWhile_append_dropWhile]
  · simp only [if_neg hsign, present_bind_eq_ok] at h
    obtain ⟨hne, -, value, hread, hv⟩ := h
    cases hv
    obtain ⟨hfits, hvalue⟩ := (readUnsigned_eq_some digit_of_takeWhile 0 value).mp hread
    have hnumber := Number.unsigned (digits_lenient hne digit_of_takeWhile) hfits
    have hofNat : UInt64.ofNat (digitsValue (text.takeWhile isDigit)) = value := by
      rw [digitsValue]
      change UInt64.ofNat (valueFrom (0 : UInt64).toNat _) = value
      rw [← hvalue, UInt64.ofNat_toNat]
    rw [hofNat] at hnumber
    exact ⟨_, hnumber, List.takeWhile_append_dropWhile.symm⟩

/-- A number in front of a delimiter is read. -/
theorem parseNumber_complete {literal : Bytes} {v : JsonValue} (h : Number lenient literal v)
    {rest : Bytes} (hrest : Delimited rest) : parseNumber (literal ++ rest) = .ok (v, rest) := by
  cases h with
  | unsigned hdigits hfits =>
    obtain ⟨htake, hdrop⟩ := takeWhile_digits hdigits.digit hrest
    have hsign : (literal ++ rest).head? ≠ some 0x2D := by
      obtain ⟨hne, hdigit, -⟩ := hdigits
      cases literal with
      | nil => exact absurd rfl hne
      | cons d digits =>
        intro hhead
        cases hhead
        exact absurd (hdigit _ (List.mem_cons_self ..)).1 (by decide)
    have hread : readUnsigned 0 literal = some (.ofNat (digitsValue literal)) := by
      apply (readUnsigned_eq_some hdigits.digit 0 _).mpr
      refine ⟨hfits, ?_⟩
      rw [UInt64.toNat_ofNat']
      exact Nat.mod_eq_of_lt hfits
    rw [parseNumber]
    simp only [if_neg hsign, htake, hdrop, require_bind_eq_ok, present_bind_eq_ok]
    exact ⟨hdigits.ne_nil, hrest.integer, _, hread, rfl⟩
  | @negative digits hdigits hfits =>
    obtain ⟨htake, hdrop⟩ := takeWhile_digits hdigits.digit hrest
    have hread : readNegative 0 digits = some (-(digitsValue digits : Int)) :=
      (readNegative_eq_some hdigits.digit (Nat.zero_le _) _).mpr ⟨hfits, rfl⟩
    rw [parseNumber]
    simp only [List.cons_append, List.head?_cons, ↓reduceIte, List.drop_one, List.tail_cons, htake,
      hdrop, require_bind_eq_ok, present_bind_eq_ok]
    exact ⟨hdigits.ne_nil, hrest.integer, _, hread, rfl⟩

end OffloadFabric.JsonReader
