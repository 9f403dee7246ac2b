import OffloadFabric.Base.Digest

/-!
# The incremental SHA-256 hasher

The class `Sha256` of `include/nof/digest.hpp` and `src/digest.cpp:58-158`, fed in pieces of
any sizes. Its digest is `sha256` of the pieces joined.
-/

namespace OffloadFabric.Sha256

/-- `Sha256`: the chaining words, the bits counted so far, and the bytes of `buffer_` that
wait for the rest of their block. Between two calls the buffer is never full. -/
structure Hasher where
  state : List UInt32
  bitLength : UInt64
  buffer : Bytes
  size : state.length = 8
  room : buffer.length < 64

namespace Hasher

/-- `Sha256::Sha256`, `src/digest.cpp:58-62`. -/
def start : Hasher where
  state := initial
  bitLength := 0
  buffer := []
  size := rfl
  room := by decide

/-- The loop of `Sha256::update`, `src/digest.cpp:118-130`. -/
def absorb (h : Hasher) (data : Bytes) : Hasher :=
  if data = [] then h
  else
    let take := min data.length (64 - h.buffer.length)
    if full : (h.buffer ++ data.take take).length = 64 then
      absorb
        { h with
          state := compress h.state (h.buffer ++ data.take take)
          buffer := []
          size := length_compress _ _ h.size
          room := Nat.zero_lt_succ 63 }
        (data.drop take)
    else
      absorb
        { h with
          buffer := h.buffer ++ data.take take
          room := by
            have := h.room
            simp only [List.length_append, List.length_take] at full ⊢
            omega }
        (data.drop take)
termination_by data.length
decreasing_by
  all_goals
    have := h.room
    have := List.length_pos_iff.mpr ‹data ≠ []›
    simp only [List.length_drop]
    omega

/-- `Sha256::update`, `src/digest.cpp:113-131`. -/
def update (h : Hasher) (data : Bytes) : Hasher :=
  absorb { h with bitLength := h.bitLength + data.length.toUInt64 * 8 } data

/-- What the hasher holds after `data`: whole blocks compressed, the rest in the buffer. -/
structure Absorbed (h : Hasher) (data : Bytes) : Prop where
  state : h.state = (blocks data).foldl compress initial
  buffer : h.buffer = data.drop (64 * (data.length / 64))

theorem absorbed_start : Absorbed start [] where
  state := rfl
  buffer := rfl

theorem Absorbed.length_buffer {h : Hasher} {data : Bytes} (w : Absorbed h data) :
    h.buffer.length = data.length % 64 := by
  rw [w.buffer, List.length_drop]
  omega

/-- Bytes that stay within the last block add no block. -/
theorem blocks_append_of_lt {data more : Bytes} (h : data.length % 64 + more.length < 64) :
    blocks (data ++ more) = blocks data := by
  have hlen : (data ++ more).length / 64 = data.length / 64 := by
    rw [List.length_append]
    omega
  unfold blocks
  rw [hlen]
  apply List.map_congr_left
  intro i hi
  have hi := List.mem_range.mp hi
  rw [List.drop_append_of_le_length (by omega)]
  apply List.take_append_of_le_length
  rw [List.length_drop]
  omega

/-- Bytes that fill the last block add that block. -/
theorem blocks_append_of_eq {data more : Bytes} (h : data.length % 64 + more.length = 64) :
    blocks (data ++ more) =
      blocks data ++ [data.drop (64 * (data.length / 64)) ++ more] := by
  have hlen : (data ++ more).length / 64 = data.length / 64 + 1 := by
    rw [List.length_append]
    omega
  unfold blocks
  rw [hlen, List.range_succ, List.map_append]
  congr 1
  · apply List.map_congr_left
    intro i hi
    have hi := List.mem_range.mp hi
    rw [List.drop_append_of_le_length (by omega)]
    apply List.take_append_of_le_length
    rw [List.length_drop]
    omega
  · rw [List.map_singleton, Nat.mul_comm, List.drop_append_of_le_length (by omega)]
    congr 1
    apply List.take_of_length_le
    rw [List.length_append, List.length_drop]
    omega

/-- One turn of the loop takes bytes from the front of what is left. -/
theorem Absorbed.absorb {h : Hasher} {data : Bytes} (w : Absorbed h data) (more : Bytes) :
    Absorbed (h.absorb more) (data ++ more) := by
  induction h, more using Hasher.absorb.induct generalizing data with
  | case1 h =>
    rw [Hasher.absorb, if_pos rfl, List.append_nil]
    exact w
  | case2 h more hne take full =>
    rename_i ih
    rw [Hasher.absorb, if_neg hne, dif_pos full]
    have hfill : data.length % 64 + (more.take take).length = 64 := by
      rw [← w.length_buffer, ← List.length_append]
      exact full
    have hstep : Absorbed
        { h with
          state := compress h.state (h.buffer ++ more.take take)
          buffer := []
          size := length_compress _ _ h.size
          room := Nat.zero_lt_succ 63 }
        (data ++ more.take take) := by
      constructor
      · simp only [blocks_append_of_eq hfill, List.foldl_append, List.foldl_cons, List.foldl_nil,
          ← w.state, ← w.buffer]
      · symm
        apply List.drop_of_length_le
        rw [List.length_append]
        omega
    have := ih hstep
    rwa [List.append_assoc, List.take_append_drop] at this
  | case3 h more hne take full =>
    rename_i ih
    rw [Hasher.absorb, if_neg hne, dif_neg full]
    have hstay : data.length % 64 + (more.take take).length < 64 := by
      have hroom := h.room
      have hle : (more.take take).length ≤ 64 - h.buffer.length :=
        (List.length_take_le _ _).trans (Nat.min_le_right _ _)
      have hne' : h.buffer.length + (more.take take).length ≠ 64 := by
        rw [← List.length_append]
        exact full
      rw [← w.length_buffer]
      omega
    have hstep : Absorbed
        { h with
          buffer := h.buffer ++ more.take take
          room := by
            rw [List.length_append, w.length_buffer]
            exact hstay }
        (data ++ more.take take) := by
      constructor
      · rw [blocks_append_of_lt hstay]
        exact w.state
      · have hdiv : (data ++ more.take take).length / 64 = data.length / 64 := by
          rw [List.length_append]
          omega
        rw [hdiv, List.drop_append_of_le_length (by omega), ← w.buffer]
    have := ih hstep
    rwa [List.append_assoc, List.take_append_drop] at this

theorem Absorbed.update {h : Hasher} {data : Bytes} (w : Absorbed h data) (more : Bytes) :
    Absorbed (h.update more) (data ++ more) := by
  apply Absorbed.absorb
  exact ⟨w.state, w.buffer⟩

@[simp] theorem bitLength_absorb (h : Hasher) (data : Bytes) :
    (h.absorb data).bitLength = h.bitLength := by
  induction h, data using Hasher.absorb.induct with
  | case1 h => rw [absorb, if_pos rfl]
  | case2 h data hne take full =>
    rename_i ih
    rw [absorb, if_neg hne, dif_pos full, ih]
  | case3 h data hne take full =>
    rename_i ih
    rw [absorb, if_neg hne, dif_neg full, ih]

@[simp] theorem bitLength_update (h : Hasher) (data : Bytes) :
    (h.update data).bitLength = h.bitLength + data.length.toUInt64 * 8 := bitLength_absorb _ _

theorem length_buffer_update_one (h : Hasher) (b : UInt8) :
    (h.update [b]).buffer.length = (h.buffer.length + 1) % 64 := by
  have hroom := h.room
  have htake : [b].take (min [b].length (64 - h.buffer.length)) = [b] := by
    apply List.take_of_length_le
    simp only [List.length_singleton]
    omega
  rw [update, absorb, if_neg (List.cons_ne_nil _ _)]
  simp only [htake]
  split
  · next full =>
    rw [List.length_append, List.length_singleton] at full
    rw [absorb, if_pos (List.drop_of_length_le (by simp; omega)), full]
    rfl
  · next full =>
    rw [List.length_append, List.length_singleton] at full
    rw [absorb, if_pos (List.drop_of_length_le (by simp; omega)), List.length_append,
      List.length_singleton]
    omega

/-- The zeros of `finish` up to the length field, `src/digest.cpp:141-143`. -/
def zeroFill (h : Hasher) : Hasher :=
  if h.buffer.length = 56 then h else zeroFill (h.update [0])
termination_by (120 - h.buffer.length) % 64
decreasing_by
  have := h.room
  rw [length_buffer_update_one]
  omega

/-- `Sha256::finish`, `src/digest.cpp:137-158`: the hasher it leaves and the digest. -/
def finish (h : Hasher) : Hasher × Digest :=
  let totalBits := h.bitLength
  let padded := (h.update [0x80]).zeroFill
  let lengthBytes : Bytes :=
    [56, 48, 40, 32, 24, 16, 8, 0].map fun s : UInt64 ↦ (totalBits >>> s).toUInt8
  let last := padded.update lengthBytes
  ({ last with bitLength := padded.bitLength },
    { bytes := last.state.flatMap storeWord
      size := by
        simp only [List.length_flatMap, storeWord, List.length_cons, List.length_nil,
          List.map_const', List.sum_replicate_nat, last.size] })

/-- The zeros end where eight bytes of the block are left. -/
theorem Absorbed.zeroFill {h : Hasher} {data : Bytes} (w : Absorbed h data) :
    Absorbed h.zeroFill (data ++ List.replicate ((120 - data.length % 64) % 64) 0) := by
  induction h using Hasher.zeroFill.induct generalizing data with
  | case1 h full =>
    have hmod : data.length % 64 = 56 := w.length_buffer.symm.trans full
    rw [Hasher.zeroFill, if_pos full, hmod, List.replicate_zero, List.append_nil]
    exact w
  | case2 h hne ih =>
    rw [w.length_buffer] at hne
    have hcount : (120 - data.length % 64) % 64 =
        1 + (120 - (data ++ [(0 : UInt8)]).length % 64) % 64 := by
      rw [List.length_append, List.length_singleton]
      omega
    rw [Hasher.zeroFill, if_neg (by rwa [w.length_buffer]), hcount, List.replicate_add,
      List.replicate_one, ← List.append_assoc]
    exact ih (w.update [0])

/-- The hasher after a run of update calls. -/
def updates (h : Hasher) (pieces : List Bytes) : Hasher := pieces.foldl update h

theorem Absorbed.updates {h : Hasher} {data : Bytes} (w : Absorbed h data)
    (pieces : List Bytes) : Absorbed (h.updates pieces) (data ++ pieces.flatten) := by
  induction pieces generalizing h data with
  | nil =>
    rw [List.flatten_nil, List.append_nil]
    exact w
  | cons piece pieces ih =>
    rw [List.flatten_cons, ← List.append_assoc]
    exact ih (w.update piece)

theorem toUInt64_add (a b : Nat) : (a + b).toUInt64 = a.toUInt64 + b.toUInt64 := by
  apply UInt64.toNat_inj.mp
  simp [Nat.toUInt64]

/-- The bit count of a run is that of the pieces joined. -/
theorem bitLength_updates (h : Hasher) (pieces : List Bytes) :
    (h.updates pieces).bitLength = h.bitLength + pieces.flatten.length.toUInt64 * 8 := by
  induction pieces generalizing h with
  | nil => simp [updates]
  | cons piece pieces ih =>
    have : (h.updates (piece :: pieces)).bitLength = ((h.update piece).updates pieces).bitLength :=
      rfl
    rw [this, ih, bitLength_update, List.flatten_cons, List.length_append, toUInt64_add,
      UInt64.add_mul, UInt64.add_assoc]

/-- Finishing after `data` gives the digest of `data`, when the bits were counted as well. -/
theorem Absorbed.finish {h : Hasher} {data : Bytes} (w : Absorbed h data)
    (bits : h.bitLength = data.length.toUInt64 * 8) : h.finish.2 = sha256 data := by
  have hfill := (w.update [0x80]).zeroFill
  have hlast := hfill.update
    ([56, 48, 40, 32, 24, 16, 8, 0].map fun s : UInt64 ↦ (h.bitLength >>> s).toUInt8)
  have hpad : data ++ [0x80] ++ List.replicate ((120 - (data ++ [(0x80 : UInt8)]).length % 64) % 64)
      0 ++ ([56, 48, 40, 32, 24, 16, 8, 0].map fun s : UInt64 ↦ (h.bitLength >>> s).toUInt8) =
        pad data := by
    have hcount : (120 - (data ++ [(0x80 : UInt8)]).length % 64) % 64 =
        (119 - data.length % 64) % 64 := by
      rw [List.length_append, List.length_singleton]
      omega
    rw [hcount, bits]
    simp only [pad, List.append_assoc, List.singleton_append]
  apply Digest.ext
  change (Hasher.update _ _).state.flatMap storeWord = (words data).flatMap storeWord
  rw [hlast.state, hpad]
  rfl

/-- The digest of a run of update calls is that of the pieces joined. -/
theorem finish_updates (pieces : List Bytes) :
    (start.updates pieces).finish.2 = sha256 pieces.flatten := by
  apply (absorbed_start.updates pieces).finish
  rw [bitLength_updates]
  exact UInt64.zero_add _

end Hasher

end OffloadFabric.Sha256
