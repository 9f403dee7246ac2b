import OffloadFabric.Wire.Format

/-!
# The wire format of the domain types

`src/wire.cpp`: decoding undoes encoding for every value within the decoder's bounds, and
encoding undoes decoding for every accepted byte string whose function classes have a zero
high byte.
-/

namespace OffloadFabric.Wire

open Lib Lib.Coder

namespace Sample

private theorem canonical_name : ascii "f" = [] ∨ isValidToken (ascii "f") = true := by decide

/-- A function of one character. -/
def function : FunctionDescriptor :=
  ⟨⟨ascii "f", canonical_name⟩, .accessControl, ⟨1⟩, ⟨1, 0⟩, true⟩

/-- Its wire format with any high byte of the class. -/
def functionBytes (high : UInt8) : Bytes :=
  [1, 0, 0, 0, 102, 2, high, 1, 0, 0, 0, 0, 0, 0, 0, 1, 0, 0, 0, 1]

end Sample

/-- Decoding the encoding of a readable value, whatever follows it, gives the value back and
stops where the encoding ends, `src/wire.cpp:142-1769`. -/
theorem DomainType.decode_encode (t : DomainType) {b : Bounds} {n c : Nat} {v : t.Value}
    {p : Bytes} (hv : t.Readable b n v) (hp : (t.encode v).encode c = .ok p) (rest : Bytes) :
    (t.decode b).run n (p ++ rest) = (.ok v, rest) := by
  obtain ⟨q, hq, haccepts, -⟩ := t.roundTrip (b := b) (n := n) v [] p (Writer.encode_eq_ok.mp hp)
  rw [List.nil_append] at hq
  subst hq
  exact haccepts hv rest

/-- The function is taken off the front of its encoding and a further byte. -/
theorem DomainType.decode_encode_function :
    (DomainType.function.decode {}).run 64 (Sample.functionBytes 0 ++ [7]) =
      (.ok Sample.function, [7]) :=
  DomainType.decode_encode .function (c := 64) (v := Sample.function)
    ⟨by decide, by decide⟩ (by decide +kernel) [7]

/-- The high bytes of the function classes in a byte string of a domain type. -/
def DomainType.classHighBytes (t : DomainType) (p : Bytes) : Bytes :=
  match t.layout.padding p with
  | some (h, _) => h
  | none => []

/-- What an accepted byte string and the encoding of its value have in common. -/
private theorem accepted_rewrites {t : DomainType} {b : Bounds} {n : Nat} {v : t.Value}
    {p : Bytes} (hv : (t.decode b).run n p = (.ok v, [])) :
    ∃ q, (∀ limit, p.length ≤ limit → (t.encode v).encode limit = .ok q) ∧
      (q = p ↔ ∀ x ∈ t.classHighBytes p, x = 0) := by
  obtain ⟨p', q, h, hp, hlen, hpadding, hq, hw⟩ := t.canonical.rewrites hv
  rw [List.append_nil] at hp
  subst hp
  refine ⟨q, fun limit hlimit ↦ ?_, ?_⟩
  · have hfits : ([] ++ q).length ≤ limit := by
      rw [List.nil_append, hlen]
      exact hlimit
    exact Writer.encode_eq_ok.mpr (hw hfits)
  · rw [hq, DomainType.classHighBytes, hpadding]

/-- Encoding the value of a wholly accepted byte string gives the string back exactly when the
high byte of each of its function classes is zero, and no two such strings have one value,
`src/wire.cpp:142-1769`. -/
theorem DomainType.encode_decode_iff (t : DomainType) {b : Bounds} {n c : Nat} {v : t.Value}
    {p : Bytes} (hv : (t.decode b).run n p = (.ok v, [])) (hlimit : p.length ≤ c) :
    ((t.encode v).encode c = .ok p ↔ ∀ x ∈ t.classHighBytes p, x = 0) ∧
      ∀ p', (t.decode b).run n p' = (.ok v, []) → (∀ x ∈ t.classHighBytes p, x = 0) →
        (∀ x ∈ t.classHighBytes p', x = 0) → p' = p := by
  obtain ⟨q, hq, hqp⟩ := accepted_rewrites hv
  refine ⟨?_, fun p' hv' hp hp' ↦ ?_⟩
  · rw [hq c hlimit, Except.ok.injEq]
    exact hqp
  · obtain ⟨q', hq', hqp'⟩ := accepted_rewrites hv'
    have hunique := hq (max p.length p'.length) (le_max_left _ _)
    rw [hq' (max p.length p'.length) (le_max_right _ _), Except.ok.injEq] at hunique
    rw [← hqp.mpr hp, ← hqp'.mpr hp']
    exact hunique

/-- The function read from a class with a high byte is written without it. -/
theorem DomainType.encode_decode_iff_function :
    ((DomainType.function.encode Sample.function).encode 64 = .ok (Sample.functionBytes 1) ↔
        ∀ x ∈ DomainType.function.classHighBytes (Sample.functionBytes 1), x = 0) ∧
      ∀ p', (DomainType.function.decode {}).run 64 p' = (.ok Sample.function, []) →
        (∀ x ∈ DomainType.function.classHighBytes (Sample.functionBytes 1), x = 0) →
        (∀ x ∈ DomainType.function.classHighBytes p', x = 0) → p' = Sample.functionBytes 1 :=
  DomainType.encode_decode_iff .function (v := Sample.function) (by decide +kernel) (by decide)

/-- Two byte strings denote one function, and encoding it gives back only one of them. -/
theorem class_high_byte_ignored :
    (DomainType.function.decode {}).run 64 (Sample.functionBytes 0) = (.ok Sample.function, []) ∧
      (DomainType.function.decode {}).run 64 (Sample.functionBytes 1) =
        (.ok Sample.function, []) ∧
      Sample.functionBytes 0 ≠ Sample.functionBytes 1 ∧
      (DomainType.function.encode Sample.function).encode 64 = .ok (Sample.functionBytes 0) := by
  decide +kernel

end OffloadFabric.Wire
