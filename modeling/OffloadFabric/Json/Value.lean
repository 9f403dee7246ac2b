import OffloadFabric.Base.Digest
import OffloadFabric.Base.ReasonCode

/-!
# JSON values and their output

`JsonValue` of `include/nof/canonical.hpp:90-128` and the writer of `src/canonical.cpp:21-58` and
`314-416`. A value is built by the constructors below only, so the members of an object stand in
the order of their keys.
-/

namespace OffloadFabric

/-- `JsonValue`, one constructor for each `Kind`; `members` is what `object` makes. -/
inductive JsonValue where
  | null
  | boolean (value : Bool)
  | integer (value : Int64)
  | uinteger (value : UInt64)
  | string (value : Bytes)
  | array (values : List JsonValue)
  | members (members : List (Bytes × JsonValue))

namespace JsonValue

/-- A property of all values, from the parts of a value to the value. -/
theorem parts_induction {P : JsonValue → Prop} (null : P .null)
    (boolean : ∀ value, P (.boolean value)) (integer : ∀ value, P (.integer value))
    (uinteger : ∀ value, P (.uinteger value)) (string : ∀ value, P (.string value))
    (array : ∀ values, (∀ v ∈ values, P v) → P (.array values))
    (members : ∀ ms, (∀ m ∈ ms, P m.2) → P (.members ms)) : ∀ v, P v
  | .null => null
  | .boolean value => boolean value
  | .integer value => integer value
  | .uinteger value => uinteger value
  | .string value => string value
  | .array values =>
    array values fun v _ ↦ parts_induction null boolean integer uinteger string array members v
  | .members ms => members ms fun m h ↦
    have : sizeOf m.2 < 1 + sizeOf ms := by
      have hmem := List.sizeOf_lt_of_mem h
      cases m
      simp only [Prod.mk.sizeOf_spec] at hmem ⊢
      omega
    parts_induction null boolean integer uinteger string array members m.2

/-! ## Construction -/

/-- The order in which `object` sorts, `src/canonical.cpp:315-316`. -/
def keyLe (a b : Bytes × JsonValue) : Bool := (compare a.1 b.1).isLE

/-- The key that two neighbours share, `src/canonical.cpp:317-321`. -/
def repeatedKey : List (Bytes × JsonValue) → Option Bytes
  | a :: b :: rest => if b.1 = a.1 then some b.1 else repeatedKey (b :: rest)
  | _ => none

/-- `JsonValue::object`, `src/canonical.cpp:314-326`. -/
def object (ms : List (Bytes × JsonValue)) : Result JsonValue :=
  match repeatedKey (ms.mergeSort keyLe) with
  | some key => .error ⟨.duplicateIdentity, "duplicate JSON key: " ++ key.text⟩
  | none => .ok (.members (ms.mergeSort keyLe))

theorem keyLe_antisymm {a b : Bytes × JsonValue} (hab : keyLe a b = true) (hba : keyLe b a = true) :
    a.1 = b.1 := by
  unfold keyLe at hab hba
  apply Std.LawfulEqOrd.eq_of_compare
  exact Std.OrientedCmp.isLE_antisymm hab hba

theorem keyLe_trans (a b c : Bytes × JsonValue) (hab : keyLe a b = true) (hbc : keyLe b c = true) :
    keyLe a c = true :=
  Std.TransCmp.isLE_trans hab hbc

theorem keyLe_total (a b : Bytes × JsonValue) : (keyLe a b || keyLe b a) = true := by
  unfold keyLe
  rw [Std.OrientedOrd.eq_swap (a := b.1)]
  cases compare a.1 b.1 <;> rfl

/-- In the order of keys a repeated key stands beside itself. -/
theorem repeatedKey_eq_none {ms : List (Bytes × JsonValue)}
    (h : ms.Pairwise fun a b ↦ keyLe a b = true) :
    repeatedKey ms = none ↔ (ms.map Prod.fst).Nodup := by
  induction ms with
  | nil => simp [repeatedKey]
  | cons a rest ih =>
    cases rest with
    | nil => simp [repeatedKey]
    | cons b rest =>
      obtain ⟨ha, hrest⟩ := List.pairwise_cons.mp h
      rw [List.map_cons, List.nodup_cons, ← ih hrest, repeatedKey]
      constructor
      · intro hnone
        split at hnone
        · cases hnone
        · next hne =>
          refine ⟨?_, hnone⟩
          intro hmem
          obtain ⟨x, hx, hkey⟩ := List.mem_map.mp hmem
          rcases List.mem_cons.mp hx with rfl | hx
          · exact hne hkey
          · -- the key of `a` stands behind `b`, so `b` lies between equal keys
            have hbx := (List.pairwise_cons.mp hrest).1 x hx
            have hba : keyLe b a = true := by
              unfold keyLe at hbx ⊢
              rwa [← hkey]
            exact hne (keyLe_antisymm hba (ha b (List.mem_cons_self ..)))
      · rintro ⟨hnot, hnone⟩
        rw [if_neg]
        · exact hnone
        · intro heq
          exact hnot (List.mem_map.mpr ⟨b, List.mem_cons_self .., heq⟩)

/-- An object is built of the members in the order of their keys, where no key is repeated. -/
theorem object_eq_ok {ms : List (Bytes × JsonValue)} {v : JsonValue} :
    object ms = .ok v ↔ (ms.map Prod.fst).Nodup ∧ v = .members (ms.mergeSort keyLe) := by
  have hsorted := List.pairwise_mergeSort keyLe_trans keyLe_total ms
  have hperm := (List.mergeSort_perm ms keyLe).map Prod.fst
  rw [← hperm.nodup_iff, ← repeatedKey_eq_none hsorted, object]
  cases repeatedKey (ms.mergeSort keyLe) with
  | some key => simp
  | none => simp [eq_comm]

theorem object_nil : object [] = .ok (.members []) :=
  object_eq_ok.mpr ⟨List.nodup_nil, by rw [List.mergeSort_nil]⟩

/-- What the constructors build. -/
inductive Built : JsonValue → Prop
  | null : Built .null
  | boolean (value : Bool) : Built (.boolean value)
  | integer (value : Int64) : Built (.integer value)
  | uinteger (value : UInt64) : Built (.uinteger value)
  | string (value : Bytes) : Built (.string value)
  | array {values : List JsonValue} : (∀ v ∈ values, Built v) → Built (.array values)
  | object {ms : List (Bytes × JsonValue)} {v : JsonValue} : (∀ m ∈ ms, Built m.2) →
      object ms = .ok v → Built v

/-! ## Output -/

/-- `kJsonMaxDepth`, `src/canonical.cpp:13`. -/
def jsonMaxDepth : Nat := 64

/-- One byte of a string, `src/canonical.cpp:24-56`. -/
def escapeByte (c : UInt8) : Bytes :=
  if c = 0x22 then ascii "\\\""
  else if c = 0x5C then ascii "\\\\"
  else if c = 0x0A then ascii "\\n"
  else if c = 0x0D then ascii "\\r"
  else if c = 0x09 then ascii "\\t"
  else if c = 0x08 then ascii "\\b"
  else if c = 0x0C then ascii "\\f"
  else if c < 0x20 ∨ 0x7F ≤ c then
    ascii "\\u00" ++ [hexDigit (c >>> 4).toUInt64, hexDigit (c &&& 0xF).toUInt64]
  else [c]

/-- `append_escaped`, `src/canonical.cpp:21-58`. -/
def appendEscaped (out text : Bytes) : Bytes := out ++ text.flatMap escapeByte

/-- A string or a key between its quotation marks. -/
def quoted (text : Bytes) : Bytes := ascii "\"" ++ text.flatMap escapeByte ++ ascii "\""

/-- The decimal digits of a number, `%llu`. -/
def decimal (n : Nat) : Bytes :=
  if n < 10 then [48 + n.toUInt8] else decimal (n / 10) ++ [48 + (n % 10).toUInt8]

/-- The decimal digits of a number behind its sign, `%lld`. -/
def signedDecimal (i : Int) : Bytes :=
  if i < 0 then 0x2D :: decimal i.natAbs else decimal i.natAbs

mutual

/-- `JsonValue::dump_into`, `src/canonical.cpp:328-405`: what it leaves in `out`. Nothing more is
written where it fails. -/
def dumpInto (maxBytes : Nat) (v : JsonValue) (out : Bytes) (depth : Nat) : Result Bytes := do
  require (depth ≤ jsonMaxDepth) ⟨.outOfRange, "json nesting depth exceeded"⟩
  require (out.length + 1 ≤ maxBytes)
    ⟨.oversizedInput, "canonical json exceeds configured bound"⟩
  match v with
  | .null => return out ++ ascii "null"
  | .boolean value => return out ++ if value then ascii "true" else ascii "false"
  | .integer value => return out ++ signedDecimal value.toInt
  | .uinteger value => return out ++ decimal value.toNat
  | .string value => return appendEscaped (out ++ ascii "\"") value ++ ascii "\""
  | .array values =>
    let out ← dumpElements maxBytes values true (out ++ ascii "[") (depth + 1)
    return out ++ ascii "]"
  | .members ms =>
    let out ← dumpMembers maxBytes ms true (out ++ ascii "\x7b") (depth + 1)
    return out ++ ascii "\x7d"

/-- The loop over the values of an array, `src/canonical.cpp:374-382`. -/
def dumpElements (maxBytes : Nat) (values : List JsonValue) (first : Bool) (out : Bytes)
    (depth : Nat) : Result Bytes :=
  match values with
  | [] => return out
  | v :: values => do
    let out ← dumpInto maxBytes v (if first then out else out ++ ascii ",") depth
    dumpElements maxBytes values false out depth

/-- The loop over the members of an object, `src/canonical.cpp:388-400`. -/
def dumpMembers (maxBytes : Nat) (ms : List (Bytes × JsonValue)) (first : Bool) (out : Bytes)
    (depth : Nat) : Result Bytes :=
  match ms with
  | [] => return out
  | m :: ms => do
    let out := (if first then out else out ++ ascii ",") ++ ascii "\""
    let out ← dumpInto maxBytes m.2 (appendEscaped out m.1 ++ ascii "\"" ++ ascii ":") depth
    dumpMembers maxBytes ms false out depth

end

/-- `JsonValue::dump`, `src/canonical.cpp:407-416`: the status and the output. -/
def dump (v : JsonValue) (maxBytes : Nat) : Result Unit × Bytes :=
  match dumpInto maxBytes v [] 0 with
  | .ok out => (.ok (), out)
  | .error e => (.error e, [])

end JsonValue

end OffloadFabric
