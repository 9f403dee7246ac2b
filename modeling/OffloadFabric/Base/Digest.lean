import OffloadFabric.Base.Bytes

/-!
# SHA-256, CRC-32C and hexadecimal text

The functions of `src/digest.cpp`. Message digests are computed over the whole message at
once; `Base/Hasher` has the incremental interface of the source and that it comes to the same.
-/

namespace OffloadFabric

/-- The lowercase digit of a nibble, `kDigits` of `src/ids.cpp:84`. -/
def hexDigit (n : UInt64) : UInt8 :=
  if n < 10 then 48 + n.toUInt8 else 87 + n.toUInt8

/-- `hex64`, `src/digest.cpp:196-205`. -/
def hex64 (value : UInt64) : Bytes :=
  [15, 14, 13, 12, 11, 10, 9, 8, 7, 6, 5, 4, 3, 2, 1, 0].map fun i : UInt64 ↦
    hexDigit ((value >>> (i * 4)) &&& 0xF)

/-- `Digest`, `include/nof/ids.hpp:263-274`: thirty-two bytes. -/
structure Digest where
  bytes : Bytes
  size : bytes.length = 32
  deriving DecidableEq

namespace Digest

theorem ext {a b : Digest} (h : a.bytes = b.bytes) : a = b := by
  cases a
  cases b
  cases h
  rfl

/-- `Digest::zero`, `include/nof/ids.hpp:266`. -/
def zero : Digest := ⟨List.replicate 32 0, by simp⟩

/-- `Digest::hex`, `src/ids.cpp:89-98`. -/
def hex (d : Digest) : Bytes :=
  d.bytes.flatMap fun b : UInt8 ↦ [hexDigit (b >>> 4).toUInt64, hexDigit (b &&& 0xF).toUInt64]

theorem length_hex (d : Digest) : d.hex.length = 64 := by
  simp only [hex, List.length_flatMap, List.length_cons, List.length_nil, List.map_const',
    List.sum_replicate_nat, d.size]

end Digest

namespace Sha256

/-- `kSha256Initial`, `src/digest.cpp:10-11`. -/
def initial : List UInt32 :=
  [0x6a09e667, 0xbb67ae85, 0x3c6ef372, 0xa54ff53a, 0x510e527f, 0x9b05688c, 0x1f83d9ab, 0x5be0cd19]

/-- `kSha256Round`, `src/digest.cpp:13-23`. -/
def round : List UInt32 :=
  [0x428a2f98, 0x71374491, 0xb5c0fbcf, 0xe9b5dba5, 0x3956c25b, 0x59f111f1, 0x923f82a4,
    0xab1c5ed5, 0xd807aa98, 0x12835b01, 0x243185be, 0x550c7dc3, 0x72be5d74, 0x80deb1fe,
    0x9bdc06a7, 0xc19bf174, 0xe49b69c1, 0xefbe4786, 0x0fc19dc6, 0x240ca1cc, 0x2de92c6f,
    0x4a7484aa, 0x5cb0a9dc, 0x76f988da, 0x983e5152, 0xa831c66d, 0xb00327c8, 0xbf597fc7,
    0xc6e00bf3, 0xd5a79147, 0x06ca6351, 0x14292967, 0x27b70a85, 0x2e1b2138, 0x4d2c6dfc,
    0x53380d13, 0x650a7354, 0x766a0abb, 0x81c2c92e, 0x92722c85, 0xa2bfe8a1, 0xa81a664b,
    0xc24b8b70, 0xc76c51a3, 0xd192e819, 0xd6990624, 0xf40e3585, 0x106aa070, 0x19a4c116,
    0x1e376c08, 0x2748774c, 0x34b0bcb5, 0x391c0cb3, 0x4ed8aa4a, 0x5b9cca4f, 0x682e6ff3,
    0x748f82ee, 0x78a5636f, 0x84c87814, 0x8cc70208, 0x90befffa, 0xa4506ceb, 0xbef9a3f7,
    0xc67178f2]

/-- `rotr`, `src/digest.cpp:25-27`. -/
def rotr (value count : UInt32) : UInt32 := (value >>> count) ||| (value <<< (32 - count))

/-- `load_be32` over consecutive words, `src/digest.cpp:29-32`. -/
def loadWords : Bytes → List UInt32
  | a :: b :: c :: d :: rest =>
      ((a.toUInt32 <<< 24) ||| (b.toUInt32 <<< 16) ||| (c.toUInt32 <<< 8) ||| d.toUInt32)
        :: loadWords rest
  | _ => []

/-- `store_be32`, `src/digest.cpp:34-39`. -/
def storeWord (w : UInt32) : Bytes :=
  [(w >>> 24).toUInt8, (w >>> 16).toUInt8, (w >>> 8).toUInt8, w.toUInt8]

/-- One extension step of the message schedule, held newest word first. -/
def extend (schedule : List UInt32) : List UInt32 :=
  let w := fun i ↦ schedule.getD i 0
  let s0 := rotr (w 14) 7 ^^^ rotr (w 14) 18 ^^^ (w 14 >>> 3)
  let s1 := rotr (w 1) 17 ^^^ rotr (w 1) 19 ^^^ (w 1 >>> 10)
  (w 15 + s0 + w 6 + s1) :: schedule

/-- The 64-word message schedule, `src/digest.cpp:61-71`. -/
def schedule (block : Bytes) : List UInt32 :=
  (Nat.repeat extend 48 (loadWords block).reverse).reverse

/-- One of the sixty-four rounds, `src/digest.cpp:82-98`. -/
def step : List UInt32 → UInt32 × UInt32 → List UInt32
  | [a, b, c, d, e, f, g, h], (k, w) =>
      let s1 := rotr e 6 ^^^ rotr e 11 ^^^ rotr e 25
      let ch := (e &&& f) ^^^ (~~~e &&& g)
      let temp1 := h + s1 + ch + k + w
      let s0 := rotr a 2 ^^^ rotr a 13 ^^^ rotr a 22
      let maj := (a &&& b) ^^^ (a &&& c) ^^^ (b &&& c)
      [temp1 + (s0 + maj), a, b, c, d + temp1, e, f, g]
  | other, _ => other

/-- `Sha256::compress`, `src/digest.cpp:64-111`. -/
def compress (state : List UInt32) (block : Bytes) : List UInt32 :=
  List.zipWith (· + ·) state ((round.zip (schedule block)).foldl step state)

/-- The padded message: a one bit, zeros to 56 modulo 64, the bit length, `src/digest.cpp:137-150`. -/
def pad (data : Bytes) : Bytes :=
  let bits : UInt64 := data.length.toUInt64 * 8
  data ++ 0x80 :: List.replicate ((119 - data.length % 64) % 64) 0 ++
    [56, 48, 40, 32, 24, 16, 8, 0].map fun s : UInt64 ↦ (bits >>> s).toUInt8

/-- The message cut into whole blocks. -/
def blocks (data : Bytes) : List Bytes :=
  (List.range (data.length / 64)).map fun i ↦ (data.drop (i * 64)).take 64

/-- The eight state words after the whole message. -/
def words (data : Bytes) : List UInt32 := (blocks (pad data)).foldl compress initial

theorem length_step (s : List UInt32) (x : UInt32 × UInt32) (h : s.length = 8) :
    (step s x).length = 8 := by
  match s, h with
  | [a, b, c, d, e, f, g, h'], _ => rfl

theorem length_compress (s : List UInt32) (block : Bytes) (h : s.length = 8) :
    (compress s block).length = 8 := by
  have hfold : ∀ (xs : List (UInt32 × UInt32)) (t : List UInt32), t.length = 8 →
      (xs.foldl step t).length = 8 := by
    intro xs
    induction xs with
    | nil =>
        intro t ht
        exact ht
    | cons x xs ih =>
        intro t ht
        exact ih _ (length_step t x ht)
  simp only [compress, List.length_zipWith, h, hfold _ s h, Nat.min_self]

theorem length_words (data : Bytes) : (words data).length = 8 := by
  have hfold : ∀ (xs : List Bytes) (t : List UInt32), t.length = 8 →
      (xs.foldl compress t).length = 8 := by
    intro xs
    induction xs with
    | nil =>
        intro t ht
        exact ht
    | cons x xs ih =>
        intro t ht
        exact ih _ (length_compress t x ht)
  exact hfold _ _ rfl

end Sha256

/-- `sha256`, `src/digest.cpp:160-170`. -/
def sha256 (data : Bytes) : Digest where
  bytes := (Sha256.words data).flatMap Sha256.storeWord
  size := by
    simp only [List.length_flatMap, Sha256.storeWord, List.length_cons, List.length_nil,
      List.map_const', List.sum_replicate_nat, Sha256.length_words]

/-- One table entry of CRC-32C, `src/digest.cpp:41-54`. -/
def crc32cEntry (i : UInt8) : UInt32 :=
  Nat.repeat (fun crc : UInt32 ↦
    if crc &&& 1 ≠ 0 then (crc >>> 1) ^^^ 0x82F63B78 else crc >>> 1) 8 i.toUInt32

/-- `crc32c`, `src/digest.cpp:171-179`. -/
def crc32c (data : Bytes) : UInt32 :=
  data.foldl (fun (crc : UInt32) (item : UInt8) ↦
    (crc >>> 8) ^^^ crc32cEntry (crc ^^^ item.toUInt32).toUInt8) 0xFFFFFFFF ^^^ 0xFFFFFFFF

end OffloadFabric
