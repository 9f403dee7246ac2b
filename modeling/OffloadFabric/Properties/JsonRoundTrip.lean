import OffloadFabric.Json.Accepts
import OffloadFabric.Json.Text

/-!
# The round trip of JSON documents

`JsonValue::dump` (`src/canonical.cpp:314-416`) and `JsonReader` (`src/canonical.cpp:422-714`): the
text of a value is a document of the grammar, whichever of its rules are taken, and denotes the
value with its non-negative integers counted as unsigned.
-/

namespace OffloadFabric.JsonValue

open Json

mutual

/-- The value with every non-negative integer as the unsigned one of the same number. -/
def counted : JsonValue → JsonValue
  | .integer value =>
    if value.toInt < 0 then .integer value else .uinteger (.ofNat value.toInt.natAbs)
  | .array values => .array (countedElements values)
  | .members ms => .members (countedMembers ms)
  | v => v

def countedElements : List JsonValue → List JsonValue
  | [] => []
  | v :: values => counted v :: countedElements values

def countedMembers : List (Bytes × JsonValue) → List (Bytes × JsonValue)
  | [] => []
  | m :: ms => (m.1, counted m.2) :: countedMembers ms

end

mutual

/-- The strings and keys of a value. -/
def strings : JsonValue → List Bytes
  | .string value => [value]
  | .array values => elementsStrings values
  | .members ms => membersStrings ms
  | _ => []

def elementsStrings : List JsonValue → List Bytes
  | [] => []
  | v :: values => strings v ++ elementsStrings values

def membersStrings : List (Bytes × JsonValue) → List Bytes
  | [] => []
  | m :: ms => m.1 :: strings m.2 ++ membersStrings ms

end

/-! ## Numbers -/

theorem digit_toNat {n : Nat} (h : n < 10) : (48 + n.toUInt8).toNat = 48 + n := by
  rw [UInt8.toNat_add]
  simp only [Nat.toUInt8, UInt8.toNat_ofNat']
  change (48 + n % 256) % 256 = _
  omega

theorem digitsValue_concat (digits : Bytes) (d : UInt8) :
    digitsValue (digits ++ [d]) = 10 * digitsValue digits + (d.toNat - 0x30) := by
  rw [digitsValue, List.foldl_append]
  rfl

theorem digitsValue_decimal (n : Nat) : digitsValue (decimal n) = n := by
  induction n using decimal.induct with
  | case1 n h =>
    rw [decimal, if_pos h]
    change 10 * 0 + ((48 + n.toUInt8).toNat - 0x30) = n
    rw [digit_toNat h]
    omega
  | case2 n h ih =>
    rw [decimal, if_neg h, digitsValue_concat, ih, digit_toNat (Nat.mod_lt n (by decide))]
    omega

theorem digits_decimal (r : Rules) (n : Nat) : Digits r (decimal n) where
  ne_nil := decimal_ne_nil n
  digit := by
    have hdigit : ∀ {n : Nat}, n < 10 → 0x30 ≤ 48 + n.toUInt8 ∧ 48 + n.toUInt8 ≤ 0x39 := by
      intro n h
      rw [UInt8.le_iff_toNat_le, UInt8.le_iff_toNat_le, digit_toNat h]
      change 48 ≤ 48 + n ∧ 48 + n ≤ 57
      omega
    induction n using decimal.induct with
    | case1 n h =>
      rw [decimal, if_pos h]
      intro d hd
      rw [List.mem_singleton.mp hd]
      exact hdigit h
    | case2 n h ih =>
      rw [decimal, if_neg h]
      intro d hd
      rcases List.mem_append.mp hd with hmem | hmem
      · exact ih d hmem
      · rw [List.mem_singleton.mp hmem]
        exact hdigit (Nat.mod_lt n (by decide))
  zero := by
    intro hhead
    right
    have hzero : ∀ n, (decimal n).head? = some 0x30 → n = 0 := by
      intro n
      induction n using decimal.induct with
      | case1 n h =>
        rw [decimal, if_pos h]
        intro hhead
        have hn := congrArg UInt8.toNat (Option.some.inj hhead)
        rw [digit_toNat h] at hn
        change 48 + n = 48 at hn
        omega
      | case2 n h ih =>
        rw [decimal, if_neg h, List.head?_append_of_ne_nil _ (decimal_ne_nil _)]
        intro hhead
        have := ih hhead
        omega
    rw [hzero n hhead, decimal, if_pos (by decide)]
    rfl

/-- The text of an unsigned number. -/
theorem number_uinteger (r : Rules) (value : UInt64) :
    Number r (decimal value.toNat) (.uinteger value) := by
  have h := Number.unsigned (digits_decimal r value.toNat)
    (by rw [digitsValue_decimal]; exact value.toNat_lt)
  rwa [digitsValue_decimal, UInt64.ofNat_toNat] at h

/-- The text of a signed number denotes it, or the unsigned one of the same number. -/
theorem number_integer (r : Rules) (value : Int64) :
    Number r (signedDecimal value.toInt) (counted (.integer value)) := by
  have hlow := value.le_toInt
  have hhigh := value.toInt_lt
  rw [signedDecimal, counted]
  split
  · next hneg =>
    have h := Number.negative (digits_decimal r value.toInt.natAbs)
      (by rw [digitsValue_decimal]; omega)
    have hvalue : -((value.toInt.natAbs : Nat) : Int) = value.toInt := by omega
    rwa [digitsValue_decimal, hvalue, Int64.ofInt_toInt] at h
  · have h := Number.unsigned (digits_decimal r value.toInt.natAbs)
      (by rw [digitsValue_decimal]; omega)
    rwa [digitsValue_decimal] at h

/-! ## Strings -/

theorem unicode_escape : ∀ n < 128,
    JsonReader.nibble (hexDigit (UInt8.ofNat n >>> 4).toUInt64) = some (n / 16) ∧
      JsonReader.nibble (hexDigit (UInt8.ofNat n &&& 0xF).toUInt64) = some (n % 16) := by
  decide

/-- The text of a character in front of the text of others. -/
theorem chars_escapeByte (r : Rules) {c : UInt8} (hc : c ≤ 0x7F) {text out : Bytes}
    (h : Chars r text out) : Chars r (escapeByte c ++ text) (c :: out) := by
  unfold escapeByte
  split
  · next heq => exact heq ▸ .escape (by decide) h
  split
  · next heq => exact heq ▸ .escape (by decide) h
  split
  · next heq => exact heq ▸ .escape (by decide) h
  split
  · next heq => exact heq ▸ .escape (by decide) h
  split
  · next heq => exact heq ▸ .escape (by decide) h
  split
  · next heq => exact heq ▸ .escape (by decide) h
  split
  · next heq => exact heq ▸ .escape (by decide) h
  split
  · have hlt : c.toNat < 128 := by
      have : c.toNat ≤ 127 := hc
      omega
    obtain ⟨hhigh, hlow⟩ := unicode_escape c.toNat hlt
    rw [UInt8.ofNat_toNat] at hhigh hlow
    have hzero : HexDigit 0x30 0 := .decimal (by decide) (by decide)
    have hvalue : ((0 * 16 + 0) * 16 + c.toNat / 16) * 16 + c.toNat % 16 = c.toNat := by omega
    have hchars := Chars.unicode hzero hzero (JsonReader.nibble_eq_some.mp hhigh)
      (JsonReader.nibble_eq_some.mp hlow) (by rw [hvalue]; exact hc) h
    rw [hvalue] at hchars
    have hcast : c.toNat.toUInt8 = c := UInt8.ofNat_toNat
    rw [hcast] at hchars
    exact hchars
  · next hquote hslash _ _ _ _ _ hplain =>
    obtain ⟨hlow, hhigh⟩ := not_or.mp hplain
    refine .plain (UInt8.not_lt.mp hlow) hc hquote hslash ?_ h
    intro hdelete
    rw [hdelete] at hhigh
    exact absurd (UInt8.le_refl _) hhigh

theorem chars_escaped (r : Rules) {s : Bytes} (h : ∀ b ∈ s, b ≤ 0x7F) :
    Chars r (s.flatMap escapeByte) s := by
  induction s with
  | nil => exact .nil
  | cons c s ih =>
    obtain ⟨hc, hs⟩ := List.forall_mem_cons.mp h
    rw [List.flatMap_cons]
    exact chars_escapeByte r hc (ih hs)
/-! ## Arrays and objects -/

/-- The values behind the first follow a comma. -/
theorem elementsText_false (v : JsonValue) (values : List JsonValue) :
    elementsText (v :: values) false = 0x2C :: elementsText (v :: values) true := by
  simp only [elementsText, Bool.false_eq_true, ↓reduceIte, List.nil_append]
  rfl

theorem membersText_false (m : Bytes × JsonValue) (ms : List (Bytes × JsonValue)) :
    membersText (m :: ms) false = 0x2C :: membersText (m :: ms) true := by
  simp only [membersText, Bool.false_eq_true, ↓reduceIte, List.nil_append]
  rfl

/-- Separated items, from the text of the first and the text of the others. -/
theorem separated_cons {α : Type} {item : Bytes → α → Prop} {text rest : Bytes} {x : α}
    {xs : List α} (hitem : item text x)
    (hrest : (xs = [] ∧ rest = []) ∨ ∃ others, rest = 0x2C :: others ∧ Separated item others xs) :
    Separated item (text ++ rest) (x :: xs) := by
  rcases hrest with ⟨rfl, rfl⟩ | ⟨others, rfl, hothers⟩
  · exact .last hitem space_nil
  · have h := Separated.more hitem space_nil hothers
    rwa [List.append_nil] at h

theorem separated_elements {form : Bytes → JsonValue → Prop} {values : List JsonValue}
    (hne : values ≠ []) (h : ∀ v ∈ values, form v.text v.counted) :
    Separated (Element form) (elementsText values true) (countedElements values) := by
  induction values with
  | nil => exact absurd rfl hne
  | cons v values ih =>
    obtain ⟨hv, hvalues⟩ := List.forall_mem_cons.mp h
    have helement : Element form v.text v.counted := ⟨[], v.text, space_nil, hv, rfl⟩
    rw [elementsText, if_pos rfl, List.nil_append]
    apply separated_cons helement
    cases values with
    | nil => exact .inl ⟨rfl, rfl⟩
    | cons w values =>
      right
      exact ⟨_, elementsText_false w values, ih (List.cons_ne_nil _ _) hvalues⟩

theorem separated_members {r : Rules} {form : Bytes → JsonValue → Prop}
    {ms : List (Bytes × JsonValue)} (hne : ms ≠ [])
    (hkeys : ∀ m ∈ ms, ∀ b ∈ m.1, b ≤ 0x7F) (h : ∀ m ∈ ms, form m.2.text m.2.counted) :
    Separated (Member r form) (membersText ms true) (countedMembers ms) := by
  induction ms with
  | nil => exact absurd rfl hne
  | cons m ms ih =>
    obtain ⟨hm, hms⟩ := List.forall_mem_cons.mp h
    obtain ⟨hkey, hkeys⟩ := List.forall_mem_cons.mp hkeys
    have hmember : Member r form (quoted m.1 ++ ascii ":" ++ m.2.text) (m.1, m.2.counted) := by
      refine ⟨[], _, [], m.2.text, space_nil, chars_escaped r hkey, space_nil,
        ⟨[], m.2.text, space_nil, hm, rfl⟩, ?_⟩
      simp only [quoted, List.append_assoc, List.nil_append, List.cons_append]
      rfl
    rw [membersText, if_pos rfl, List.nil_append]
    apply separated_cons hmember
    cases ms with
    | nil => exact .inl ⟨rfl, rfl⟩
    | cons n ms =>
      right
      exact ⟨_, membersText_false n ms, ih (List.cons_ne_nil _ _) hkeys hms⟩

theorem countedMembers_eq (ms : List (Bytes × JsonValue)) :
    countedMembers ms = ms.map fun m ↦ (m.1, m.2.counted) := by
  induction ms with
  | nil => rfl
  | cons m ms ih => rw [countedMembers, ih, List.map_cons]

theorem mem_elementsStrings {values : List JsonValue} {s : Bytes} :
    s ∈ elementsStrings values ↔ ∃ v ∈ values, s ∈ v.strings := by
  induction values with
  | nil => simp [elementsStrings]
  | cons v values ih => simp [elementsStrings, ih]

theorem mem_membersStrings {ms : List (Bytes × JsonValue)} {s : Bytes} :
    s ∈ membersStrings ms ↔ ∃ m ∈ ms, s = m.1 ∨ s ∈ m.2.strings := by
  induction ms with
  | nil => simp [membersStrings]
  | cons m ms ih => simp [membersStrings, ih, or_assoc]

/-! ## Documents -/

/-- Members in the order of their keys stay so when they are counted. -/
theorem mergeSort_counted (ms : List (Bytes × JsonValue)) :
    (countedMembers (ms.mergeSort keyLe)).mergeSort keyLe = countedMembers (ms.mergeSort keyLe) := by
  apply List.mergeSort_of_pairwise
  rw [countedMembers_eq, List.pairwise_map]
  exact List.pairwise_mergeSort keyLe_trans keyLe_total ms

/-- **The text of a value** built by the constructors is a value of the grammar, under any of its
rules. -/
theorem value_text (r : Rules) {v : JsonValue} (hbuilt : Built v)
    (hascii : ∀ s ∈ v.strings, ∀ b ∈ s, b ≤ 0x7F) {levels : Nat} (hdepth : v.depth < levels) :
    Value r levels v.text v.counted := by
  induction hbuilt generalizing levels with
  | null =>
    obtain ⟨levels, rfl⟩ := Nat.exists_eq_succ_of_ne_zero (Nat.ne_zero_of_lt hdepth)
    exact .null
  | boolean value =>
    obtain ⟨levels, rfl⟩ := Nat.exists_eq_succ_of_ne_zero (Nat.ne_zero_of_lt hdepth)
    cases value with
    | true => exact .true
    | false => exact .false
  | integer value =>
    obtain ⟨levels, rfl⟩ := Nat.exists_eq_succ_of_ne_zero (Nat.ne_zero_of_lt hdepth)
    exact .number (number_integer r value)
  | uinteger value =>
    obtain ⟨levels, rfl⟩ := Nat.exists_eq_succ_of_ne_zero (Nat.ne_zero_of_lt hdepth)
    exact .number (number_uinteger r value)
  | string value =>
    obtain ⟨levels, rfl⟩ := Nat.exists_eq_succ_of_ne_zero (Nat.ne_zero_of_lt hdepth)
    exact .string (chars_escaped r (hascii value (List.mem_singleton_self _)))
  | @array values _ ih =>
    obtain ⟨levels, rfl⟩ := Nat.exists_eq_succ_of_ne_zero (Nat.ne_zero_of_lt hdepth)
    rw [JsonValue.depth, Nat.lt_succ_iff] at hdepth
    rw [text, counted]
    by_cases hne : values = []
    · rw [hne]
      exact .emptyArray space_nil
    · apply Layer.array
      apply separated_elements hne
      intro v hv
      apply ih v hv
      · intro s hs
        exact hascii s (mem_elementsStrings.mpr ⟨v, hv, hs⟩)
      · exact elementsDepth_le.mp hdepth v hv
  | @object ms v _ hobject ih =>
    obtain ⟨levels, rfl⟩ := Nat.exists_eq_succ_of_ne_zero (Nat.ne_zero_of_lt hdepth)
    obtain ⟨hnodup, rfl⟩ := object_eq_ok.mp hobject
    rw [JsonValue.depth, Nat.lt_succ_iff] at hdepth
    have hperm := List.mergeSort_perm ms keyLe
    rw [text, counted, ← mergeSort_counted]
    by_cases hne : ms.mergeSort keyLe = []
    · rw [hne, countedMembers, List.mergeSort_nil]
      exact .emptyObject space_nil
    · have hmembers : Separated (Member r (Value r levels)) (membersText (ms.mergeSort keyLe) true)
          (countedMembers (ms.mergeSort keyLe)) := by
        apply separated_members hne
        · intro m hm
          exact hascii m.1 (mem_membersStrings.mpr ⟨m, hm, .inl rfl⟩)
        · intro m hm
          apply ih m (hperm.mem_iff.mp hm)
          · intro s hs
            exact hascii s (mem_membersStrings.mpr ⟨m, hm, .inr hs⟩)
          · exact membersDepth_le.mp hdepth m hm
      apply Layer.object hmembers
      rw [countedMembers_eq, List.map_map]
      exact (hperm.map Prod.fst).nodup_iff.mpr hnodup

/-! ## Counting changes no text -/

/-- What counting leaves of a value: its text, its depth and what counting makes of it. -/
structure Alike (w v : JsonValue) : Prop where
  text : w.text = v.text
  depth : w.depth = v.depth
  counted : w.counted = v.counted

theorem alike_elements {values : List JsonValue} (h : ∀ v ∈ values, Alike v.counted v) :
    (∀ first, elementsText (countedElements values) first = elementsText values first) ∧
      elementsDepth (countedElements values) = elementsDepth values ∧
        countedElements (countedElements values) = countedElements values := by
  induction values with
  | nil => exact ⟨fun _ ↦ rfl, rfl, rfl⟩
  | cons v values ih =>
    obtain ⟨hv, hvalues⟩ := List.forall_mem_cons.mp h
    obtain ⟨htext, hdepth, hcounted⟩ := ih hvalues
    refine ⟨?_, ?_, ?_⟩
    · intro first
      rw [countedElements, elementsText, elementsText, hv.text, htext]
    · rw [countedElements, elementsDepth, elementsDepth, hv.depth, hdepth]
    · rw [countedElements, countedElements, hv.counted, hcounted]

theorem alike_members {ms : List (Bytes × JsonValue)} (h : ∀ m ∈ ms, Alike m.2.counted m.2) :
    (∀ first, membersText (countedMembers ms) first = membersText ms first) ∧
      membersDepth (countedMembers ms) = membersDepth ms ∧
        countedMembers (countedMembers ms) = countedMembers ms := by
  induction ms with
  | nil => exact ⟨fun _ ↦ rfl, rfl, rfl⟩
  | cons m ms ih =>
    obtain ⟨hm, hms⟩ := List.forall_mem_cons.mp h
    obtain ⟨htext, hdepth, hcounted⟩ := ih hms
    refine ⟨?_, ?_, ?_⟩
    · intro first
      rw [countedMembers, membersText, membersText, hm.text, htext]
    · rw [countedMembers, membersDepth, membersDepth, hm.depth, hdepth]
    · rw [countedMembers, countedMembers, hm.counted, hcounted]

theorem alike_integer (value : Int64) : Alike (counted (.integer value)) (.integer value) := by
  have hlow := value.le_toInt
  have hhigh := value.toInt_lt
  rw [counted]
  split
  · exact ⟨rfl, rfl, rfl⟩
  · next hneg =>
    refine ⟨?_, rfl, ?_⟩
    · rw [text, text, signedDecimal, if_neg hneg, UInt64.toNat_ofNat', Nat.mod_eq_of_lt (by omega)]
    · simp only [counted, if_neg hneg]

theorem alike_counted (v : JsonValue) : Alike v.counted v := by
  induction v using parts_induction with
  | null => exact ⟨rfl, rfl, rfl⟩
  | boolean value => exact ⟨rfl, rfl, rfl⟩
  | integer value => exact alike_integer value
  | uinteger value => exact ⟨rfl, rfl, rfl⟩
  | string value => exact ⟨rfl, rfl, rfl⟩
  | array values ih =>
    obtain ⟨htext, hdepth, hcounted⟩ := alike_elements ih
    refine ⟨?_, ?_, ?_⟩
    · rw [counted, text, text, htext]
    · rw [counted, JsonValue.depth, JsonValue.depth, hdepth]
    · rw [counted, counted, hcounted]
  | members ms ih =>
    obtain ⟨htext, hdepth, hcounted⟩ := alike_members ih
    refine ⟨?_, ?_, ?_⟩
    · rw [counted, text, text, htext]
    · rw [counted, JsonValue.depth, JsonValue.depth, hdepth]
    · rw [counted, counted, hcounted]

/-! ## The round trip -/

/-- Without a limit that the document exceeds, a value is written as its text. -/
theorem dump_text {v : JsonValue} {maxBytes : Nat} (hdepth : v.depth ≤ jsonMaxDepth)
    (hsize : v.text.length ≤ maxBytes) : v.dump maxBytes = (.ok (), v.text) := by
  have hok := dump_ok_iff.mpr (admitted_of_length hdepth hsize)
  have hout : (v.dump maxBytes).2 = if (v.dump maxBytes).1 = .ok () then v.text else [] :=
    dump_output
  rw [if_pos hok] at hout
  exact Prod.ext hok hout

/-- The text of a value is read back as the value, up to counting. -/
theorem parse_text {v : JsonValue} (hbuilt : Built v)
    (hascii : ∀ s ∈ v.strings, ∀ b ∈ s, b ≤ 0x7F) {maxDepth : Nat} (hdepth : v.depth ≤ maxDepth) :
    JsonReader.parse v.text maxDepth = .ok v.counted := by
  have hvalue := value_text JsonReader.lenient hbuilt hascii (Nat.lt_succ_of_le hdepth)
  apply JsonReader.parse_eq_ok.mpr
  exact ⟨v.text, [], ⟨[], v.text, space_nil, hvalue, rfl⟩, space_nil, (List.append_nil _).symm⟩

/-- A value of ASCII strings, nested no deeper than the reader's limit, is written where no limit of
size stops it; its text is read back as a value that is equal up to counting and has the same
text. -/
theorem json_round_trip (v : JsonValue) (hbuilt : Built v)
    (hascii : ∀ s ∈ v.strings, ∀ b ∈ s, b ≤ 0x7F) (hdepth : v.depth ≤ 32) :
    ∃ document w, (∀ maxBytes, document.length ≤ maxBytes →
        v.dump maxBytes = (.ok (), document)) ∧
      JsonReader.parse document = .ok w ∧ w.counted = v.counted ∧
        ∀ maxBytes, document.length ≤ maxBytes → w.dump maxBytes = (.ok (), document) := by
  have hlimit : v.depth ≤ jsonMaxDepth := hdepth.trans (by decide)
  have halike := alike_counted v
  refine ⟨v.text, v.counted, fun maxBytes ↦ dump_text hlimit, parse_text hbuilt hascii hdepth,
    halike.counted, ?_⟩
  intro maxBytes hsize
  rw [← halike.text] at hsize ⊢
  exact dump_text (by rwa [halike.depth]) hsize

/-- An object of a negative number, the greatest number and an escaped string. -/
theorem json_round_trip_object : ∃ document w,
    (∀ maxBytes, document.length ≤ maxBytes →
      (members [(ascii "a", .integer (-1)), (ascii "b", .array [.string [0x0A, 0x7F]])]).dump
        maxBytes = (.ok (), document)) ∧
      JsonReader.parse document = .ok w ∧
        w.counted = (members [(ascii "a", .integer (-1)),
          (ascii "b", .array [.string [0x0A, 0x7F]])]).counted ∧
            ∀ maxBytes, document.length ≤ maxBytes → w.dump maxBytes = (.ok (), document) := by
  apply json_round_trip
  · have hobject : object [(ascii "a", .integer (-1)), (ascii "b", .array [.string [0x0A, 0x7F]])] =
        .ok (members [(ascii "a", .integer (-1)), (ascii "b", .array [.string [0x0A, 0x7F]])]) := by
      apply object_eq_ok.mpr
      rw [List.mergeSort_of_pairwise]
      · exact ⟨by decide, rfl⟩
      · rw [List.pairwise_pair]
        rfl
    apply Built.object ?_ hobject
    · intro m hm
      simp only [List.mem_cons, List.not_mem_nil, or_false] at hm
      rcases hm with rfl | rfl
      · exact .integer _
      · apply Built.array
        intro v hv
        rw [List.mem_singleton.mp hv]
        exact .string _
  · decide +kernel
  · decide +kernel

end OffloadFabric.JsonValue
