import OffloadFabric.Base.Digest

/-!
# What CRC-32C detects

The table step of `src/digest.cpp:171-179` loses nothing: the register and the byte before it are
read off the register after it. A difference in one byte therefore survives every suffix.
-/

namespace OffloadFabric

/-- One byte of `crc32c`, `src/digest.cpp:174-177`. -/
def crc32cStep (crc : UInt32) (item : UInt8) : UInt32 :=
  (crc >>> 8) ^^^ crc32cEntry (crc ^^^ item.toUInt32).toUInt8

theorem crc32c_eq (data : Bytes) :
    crc32c data = data.foldl crc32cStep 0xFFFFFFFF ^^^ 0xFFFFFFFF := rfl

/-- One shift of the table construction taken back: the low bit that left is the top bit, as the
polynomial has it set. -/
private def unshift (crc : UInt32) : UInt32 :=
  if crc &&& 0x80000000 ≠ 0 then ((crc ^^^ 0x82F63B78) <<< 1) ||| 1 else crc <<< 1

/-- The index of the table entry with the given top byte. -/
private def entryIndex (top : UInt32) : UInt8 := (Nat.repeat unshift 8 (top <<< 24)).toUInt8

private theorem entryIndex_entry (i : UInt8) : entryIndex (crc32cEntry i >>> 24) = i := by
  have hall : ∀ n : Fin 256, entryIndex (crc32cEntry (UInt8.ofNat n) >>> 24) = UInt8.ofNat n := by
    decide +kernel
  have hi := hall ⟨i.toNat, i.toNat_lt⟩
  rwa [UInt8.ofNat_toNat] at hi

private theorem step_top (crc : UInt32) (item : UInt8) :
    crc32cStep crc item >>> 24 = crc32cEntry (crc ^^^ item.toUInt32).toUInt8 >>> 24 := by
  have hzero : crc >>> 8 >>> 24 = 0 := by
    apply UInt32.toNat_inj.mp
    have := crc.toNat_lt
    simp [UInt32.toNat_shiftRight, Nat.shiftRight_eq_div_pow]
    omega
  rw [crc32cStep, UInt32.shiftRight_xor, hzero, UInt32.zero_xor]

/-- The register and the byte that led to a register agree in their low byte. -/
private theorem step_index {c c' : UInt32} {b b' : UInt8} (h : crc32cStep c b = crc32cStep c' b') :
    (c ^^^ b.toUInt32).toUInt8 = (c' ^^^ b'.toUInt32).toUInt8 := by
  have htop := congrArg (fun crc : UInt32 ↦ crc >>> 24) h
  simp only [step_top] at htop
  have hindex := congrArg entryIndex htop
  rwa [entryIndex_entry, entryIndex_entry] at hindex

/-- A step from one register tells its bytes apart. -/
theorem crc32cStep_item_injective (crc : UInt32) : Function.Injective (crc32cStep crc) := by
  intro b b' h
  have hindex := step_index h
  simp only [UInt32.toUInt8_xor, UInt8.toUInt8_toUInt32] at hindex
  exact (UInt8.xor_right_inj _).mp hindex

/-- A step over one byte tells its registers apart. -/
theorem crc32cStep_register_injective (item : UInt8) :
    Function.Injective fun crc ↦ crc32cStep crc item := by
  intro c c' h
  have hindex := step_index h
  have hlow : c.toUInt8 = c'.toUInt8 := by
    simp only [UInt32.toUInt8_xor] at hindex
    exact (UInt8.xor_left_inj _).mp hindex
  have hhigh : c >>> 8 = c' >>> 8 := by
    simp only [crc32cStep, hindex] at h
    exact (UInt32.xor_left_inj _).mp h
  apply UInt32.toNat_inj.mp
  have hlow' := congrArg UInt8.toNat hlow
  have hhigh' := congrArg UInt32.toNat hhigh
  simp [UInt32.toNat_shiftRight, Nat.shiftRight_eq_div_pow] at hlow' hhigh'
  omega

theorem foldl_crc32cStep_injective (data : Bytes) :
    Function.Injective fun crc ↦ data.foldl crc32cStep crc := by
  induction data with
  | nil => exact fun _ _ h ↦ h
  | cons b bs ih => exact fun _ _ h ↦ crc32cStep_register_injective b (ih h)

/-- **One changed byte changes the checksum**, whatever stands before and after it. -/
theorem crc32c_ne_of_byte {b b' : UInt8} (h : b ≠ b') (p s : Bytes) :
    crc32c (p ++ b :: s) ≠ crc32c (p ++ b' :: s) := by
  intro heq
  simp only [crc32c_eq, List.foldl_append, List.foldl_cons] at heq
  have hfold := foldl_crc32cStep_injective s ((UInt32.xor_left_inj _).mp heq)
  exact h (crc32cStep_item_injective _ hfold)

/-- The checksum of the standard check string "123456789". -/
example : crc32c (ascii "123456789") = 0xE3069283 := by decide +kernel

end OffloadFabric
