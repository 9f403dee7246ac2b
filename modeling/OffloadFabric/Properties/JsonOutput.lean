import OffloadFabric.Json.Text

/-!
# The bound on JSON output

`JsonValue::dump` (`src/canonical.cpp:328-416`) against its bound. The bound is tested where a
nested value begins and by one byte only, so what is written behind the beginning of the last
value is not counted.
-/

namespace OffloadFabric.JsonValue

variable {maxBytes : Nat} {v : JsonValue}

/-- Output is bounded: a document written has at most `maxBytes` bytes, a document of admissible
depth that has at most so many is written, and a refusal leaves nothing. -/
structure Bounded (maxBytes : Nat) (v : JsonValue) : Prop where
  within : (v.dump maxBytes).1 = .ok () → (v.dump maxBytes).2.length ≤ maxBytes
  written : v.depth ≤ jsonMaxDepth → v.text.length ≤ maxBytes → (v.dump maxBytes).1 = .ok ()
  refused : (v.dump maxBytes).1 ≠ .ok () → (v.dump maxBytes).2 = []

/-- The bound holds unless a document that exceeds it has all its values, the nested ones as well,
begin before the bound, at an admissible depth. -/
theorem dump_bounded_iff (maxBytes : Nat) (v : JsonValue) :
    Bounded maxBytes v ↔
      v.text.length ≤ maxBytes ∨ jsonMaxDepth < v.depth ∨ ∃ start ∈ v.starts 0, maxBytes ≤ start := by
  constructor
  · intro h
    by_cases hok : (v.dump maxBytes).1 = .ok ()
    · left
      have hwithin := h.within hok
      rwa [dump_output, if_pos hok] at hwithin
    · right
      by_contra hnone
      simp only [not_or, not_exists, not_and, Nat.not_le, Nat.not_lt] at hnone
      obtain ⟨hdepth, hstarts⟩ := hnone
      exact hok (dump_ok_iff.mpr ⟨by rwa [Nat.zero_add], hstarts⟩)
  · intro h
    refine ⟨?_, ?_, ?_⟩
    · intro hok
      obtain ⟨hdepth, hstarts⟩ := dump_ok_iff.mp hok
      rw [Nat.zero_add] at hdepth
      rw [dump_output, if_pos hok]
      rcases h with hsize | hdeep | ⟨start, hmem, hbeyond⟩
      · exact hsize
      · omega
      · have := hstarts start hmem
        omega
    · intro hdepth hsize
      exact dump_ok_iff.mpr (admitted_of_length hdepth hsize)
    · intro hrefused
      rw [dump_output, if_neg hrefused]

/-- A string of three letters is written under a bound of one byte. -/
theorem dump_not_bounded : ¬ ∀ (maxBytes : Nat) (v : JsonValue), Built v → Bounded maxBytes v := by
  intro h
  have hdump : dump (.string (ascii "abc")) 1 = (.ok (), ascii "\"abc\"") := by rfl
  have hwithin := (h 1 _ (.string (ascii "abc"))).within
  rw [hdump] at hwithin
  exact absurd (hwithin rfl) (by decide)

end OffloadFabric.JsonValue
