import OffloadFabric.Json.Value

/-!
# The grammar of JSON documents

What a document is, as a language of byte strings and the values they denote: ASCII, integers of
64 bits and objects without repeated keys. Two rules are left open, whether a number may begin
with zeros it does not need and whether the byte `7F` may stand in a string as it is.
-/

namespace OffloadFabric.Json

/-- The rules left open. -/
structure Rules where
  leadingZeros : Bool
  rawDelete : Bool
  deriving DecidableEq

/-- The strict grammar: no number begins with a zero it does not need, and a string may hold every
ASCII character that is not a control character, a quotation mark or a backslash. -/
def strict : Rules := { leadingZeros := false, rawDelete := true }

variable (r : Rules)

/-- Insignificant white space. -/
def Space (text : Bytes) : Prop := ∀ c ∈ text, c ∈ [0x20, 0x09, 0x0A, 0x0D]

theorem space_nil : Space [] := fun _ h ↦ absurd h List.not_mem_nil

theorem Space.append {a b : Bytes} (ha : Space a) (hb : Space b) : Space (a ++ b) := by
  intro c hc
  rcases List.mem_append.mp hc with h | h
  · exact ha c h
  · exact hb c h

/-! ## Strings -/

/-- A hexadecimal digit and its number. -/
inductive HexDigit : UInt8 → Nat → Prop
  | decimal {d : UInt8} : 0x30 ≤ d → d ≤ 0x39 → HexDigit d (d.toNat - 0x30)
  | lower {d : UInt8} : 0x61 ≤ d → d ≤ 0x66 → HexDigit d (d.toNat - 0x61 + 10)
  | upper {d : UInt8} : 0x41 ≤ d → d ≤ 0x46 → HexDigit d (d.toNat - 0x41 + 10)

theorem HexDigit.lt {d : UInt8} {n : Nat} (h : HexDigit d n) : n < 2 ^ 4 := by
  cases h with
  | decimal _ hhigh =>
    have : d.toNat ≤ 0x39 := hhigh
    omega
  | lower _ hhigh =>
    have : d.toNat ≤ 0x66 := hhigh
    omega
  | upper _ hhigh =>
    have : d.toNat ≤ 0x46 := hhigh
    omega

/-- The letters that escape a character, with the character. -/
def escapes : List (UInt8 × UInt8) :=
  [(0x22, 0x22), (0x5C, 0x5C), (0x2F, 0x2F), (0x62, 0x08), (0x66, 0x0C), (0x6E, 0x0A), (0x72, 0x0D),
    (0x74, 0x09)]

/-- What may stand between quotation marks, with the characters it denotes. -/
inductive Chars : Bytes → Bytes → Prop
  | nil : Chars [] []
  | plain {c : UInt8} {text out : Bytes} : 0x20 ≤ c → c ≤ 0x7F → c ≠ 0x22 → c ≠ 0x5C →
      (c = 0x7F → r.rawDelete = true) → Chars text out → Chars (c :: text) (c :: out)
  | escape {e c : UInt8} {text out : Bytes} : (e, c) ∈ escapes → Chars text out →
      Chars (0x5C :: e :: text) (c :: out)
  | unicode {d0 d1 d2 d3 : UInt8} {n0 n1 n2 n3 : Nat} {text out : Bytes} : HexDigit d0 n0 →
      HexDigit d1 n1 → HexDigit d2 n2 → HexDigit d3 n3 →
      ((n0 * 16 + n1) * 16 + n2) * 16 + n3 ≤ 0x7F → Chars text out →
      Chars (0x5C :: 0x75 :: d0 :: d1 :: d2 :: d3 :: text)
        ((((n0 * 16 + n1) * 16 + n2) * 16 + n3).toUInt8 :: out)

variable {r} in
/-- More strings stand under a rule that allows more. -/
theorem Chars.mono {r' : Rules} (h : r.rawDelete = true → r'.rawDelete = true)
    {text out : Bytes} (hchars : Chars r text out) : Chars r' text out := by
  induction hchars with
  | nil => exact .nil
  | plain hlow hhigh hquote hslash hdelete _ ih =>
    exact .plain hlow hhigh hquote hslash (h ∘ hdelete) ih
  | escape hescape _ ih => exact .escape hescape ih
  | unicode h0 h1 h2 h3 hle _ ih => exact .unicode h0 h1 h2 h3 hle ih

/-! ## Numbers -/

/-- The digits of a number. -/
structure Digits (digits : Bytes) : Prop where
  ne_nil : digits ≠ []
  digit : ∀ d ∈ digits, 0x30 ≤ d ∧ d ≤ 0x39
  zero : digits.head? = some 0x30 → r.leadingZeros = true ∨ digits = [0x30]

/-- The number that digits denote. -/
def digitsValue (digits : Bytes) : Nat := digits.foldl (fun n d ↦ 10 * n + (d.toNat - 0x30)) 0

/-- An integer of 64 bits, signed where it is negative. -/
inductive Number : Bytes → JsonValue → Prop
  | unsigned {digits : Bytes} : Digits r digits → digitsValue digits < 2 ^ 64 →
      Number digits (.uinteger (.ofNat (digitsValue digits)))
  | negative {digits : Bytes} : Digits r digits → digitsValue digits ≤ 2 ^ 63 →
      Number (0x2D :: digits) (.integer (.ofInt (-digitsValue digits)))

/-! ## Arrays and objects -/

/-- Items separated by commas, with white space behind each. -/
inductive Separated {α : Type} (item : Bytes → α → Prop) : Bytes → List α → Prop
  | last {text space : Bytes} {x : α} : item text x → Space space →
      Separated item (text ++ space) [x]
  | more {text space rest : Bytes} {x : α} {xs : List α} : item text x → Space space →
      Separated item rest xs → Separated item (text ++ space ++ 0x2C :: rest) (x :: xs)

variable (value : Bytes → JsonValue → Prop)

/-- A value with white space in front of it. -/
def Element (text : Bytes) (v : JsonValue) : Prop :=
  ∃ space inner, Space space ∧ value inner v ∧ text = space ++ inner

/-- A member of an object: a key, a colon and a value. -/
def Member (text : Bytes) (m : Bytes × JsonValue) : Prop :=
  ∃ space key behind element, Space space ∧ Chars r key m.1 ∧ Space behind ∧
    Element value element m.2 ∧
      text = space ++ 0x22 :: key ++ 0x22 :: behind ++ 0x3A :: element

variable {r value}

/-- White space in front of an item belongs to the item. -/
theorem Separated.space {α : Type} {item : Bytes → α → Prop}
    (hitem : ∀ {space text x}, Space space → item text x → item (space ++ text) x)
    {space text : Bytes} {xs : List α} (hspace : Space space) (h : Separated item text xs) :
    Separated item (space ++ text) xs := by
  cases h with
  | last h hbehind =>
    rw [← List.append_assoc]
    exact .last (hitem hspace h) hbehind
  | more h hbehind hrest =>
    rw [← List.append_assoc, ← List.append_assoc]
    exact .more (hitem hspace h) hbehind hrest

theorem element_space {space text : Bytes} {v : JsonValue} (hspace : Space space)
    (h : Element value text v) : Element value (space ++ text) v := by
  obtain ⟨front, inner, hfront, hinner, rfl⟩ := h
  exact ⟨space ++ front, inner, hspace.append hfront, hinner, (List.append_assoc ..).symm⟩

theorem member_space {space text : Bytes} {m : Bytes × JsonValue}
    (hspace : Space space) (h : Member r value text m) : Member r value (space ++ text) m := by
  obtain ⟨front, key, behind, element, hfront, hkey, hbehind, helement, rfl⟩ := h
  refine ⟨space ++ front, key, behind, element, hspace.append hfront, hkey, hbehind, helement, ?_⟩
  simp only [List.append_assoc]

variable (r value)

/-- The values over the values one level below. -/
inductive Layer : Bytes → JsonValue → Prop
  | null : Layer (ascii "null") .null
  | true : Layer (ascii "true") (.boolean true)
  | false : Layer (ascii "false") (.boolean false)
  | number {text : Bytes} {v : JsonValue} : Number r text v → Layer text v
  | string {text out : Bytes} : Chars r text out → Layer (0x22 :: text ++ [0x22]) (.string out)
  | emptyArray {space : Bytes} : Space space → Layer (0x5B :: space ++ [0x5D]) (.array [])
  | array {text : Bytes} {values : List JsonValue} : Separated (Element value) text values →
      Layer (0x5B :: text ++ [0x5D]) (.array values)
  | emptyObject {space : Bytes} : Space space → Layer (0x7B :: space ++ [0x7D]) (.members [])
  | object {text : Bytes} {ms : List (Bytes × JsonValue)} : Separated (Member r value) text ms →
      (ms.map Prod.fst).Nodup →
      Layer (0x7B :: text ++ [0x7D]) (.members (ms.mergeSort JsonValue.keyLe))

/-- The values with at most so many levels. -/
def Value : (levels : Nat) → Bytes → JsonValue → Prop
  | 0 => fun _ _ ↦ False
  | levels + 1 => Layer r (Value levels)

/-- One document with nothing but white space around it, its values nested at most `maxDepth`
levels below the outermost. -/
def Document (maxDepth : Nat) (text : Bytes) (v : JsonValue) : Prop :=
  ∃ element behind, Element (Value r (maxDepth + 1)) element v ∧ Space behind ∧
    text = element ++ behind

end OffloadFabric.Json
