import Mathlib.Data.UInt
import Std.Data.ExtTreeMap

/-!
# Byte strings

`std::string`, `std::vector<std::byte>` and spans are all byte lists here. Literal text is
restricted to ASCII, where a character is its own byte.
-/

namespace OffloadFabric

/-- Byte strings, the common model of `std::string` and `std::span<const std::byte>`. -/
abbrev Bytes := List UInt8

/-- The bytes of an ASCII literal. -/
def ascii (s : String) : Bytes := s.toList.map fun c ↦ c.toNat.toUInt8

/-- The text of a byte string, used where the source builds an error text from one. -/
def Bytes.text (b : Bytes) : String := String.ofList (b.map fun x ↦ Char.ofNat x.toNat)

end OffloadFabric
