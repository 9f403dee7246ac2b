import OffloadFabric.Base.Hasher
import OffloadFabric.Lib.SecureHash

/-!
# The digest is the standard one

`src/digest.cpp:58-158` against the SHA-256 standard: the tables, the message schedule, the
rounds, the padding, and from these the digest of every message fed in any pieces.
-/

namespace OffloadFabric.Sha256

open SecureHash (Variables Word toBits ofBits)

/-! ## Words -/

/-- The eight words of a hash value as the source keeps them. -/
def lift (v : Variables) : List UInt32 := v.words.map UInt32.ofBitVec

theorem step_lift (v : Variables) (k w : UInt32) :
    step (lift v) (k, w) = lift (SecureHash.turn k.toBitVec w.toBitVec v) := by
  rfl

theorem zipWith_lift (v w : Variables) :
    List.zipWith (· + ·) (lift v) (lift w) = lift (SecureHash.add w v) := by
  cases v
  cases w
  simp only [lift, Variables.words, SecureHash.add, List.map_cons, List.map_nil,
    List.zipWith_cons_cons, List.zipWith_nil_left, ← UInt32.ofBitVec_add, BitVec.add_comm]

/-! ## The tables -/

/-- The primes whose roots the tables hold. -/
def primes : List Nat :=
  [2, 3, 5, 7, 11, 13, 17, 19, 23, 29, 31, 37, 41, 43, 47, 53, 59, 61, 67, 71, 73, 79, 83, 89,
    97, 101, 103, 107, 109, 113, 127, 131, 137, 139, 149, 151, 157, 163, 167, 173, 179, 181, 191,
    193, 197, 199, 211, 223, 227, 229, 233, 239, 241, 251, 257, 263, 269, 271, 277, 281, 283, 293,
    307, 311]

theorem filter_prime : (List.range 312).filter Nat.Prime = primes := by
  decide +kernel

/-- An entry brackets the root of its prime. -/
def Brackets (r p : Nat) (w : UInt32) : Prop :=
  ∃ c < 18, (c * 2 ^ 32 + w.toNat) ^ r ≤ p * (2 ^ 32) ^ r ∧
    p * (2 ^ 32) ^ r < (c * 2 ^ 32 + w.toNat + 1) ^ r

instance (r p : Nat) (w : UInt32) : Decidable (Brackets r p w) :=
  inferInstanceAs (Decidable (∃ c < 18, _))

theorem brackets_round : ∀ x ∈ primes.zip round, Brackets 3 x.1 x.2 := by
  decide +kernel

theorem brackets_initial : ∀ x ∈ primes.zip initial, Brackets 2 x.1 x.2 := by
  decide +kernel

theorem Brackets.fractionBits {r p : Nat} {w : UInt32} (hr : r ≠ 0) (h : Brackets r p w) :
    SecureHash.fractionBits ((p : ℝ) ^ (r : ℝ)⁻¹) = w.toBitVec := by
  obtain ⟨c, -, low, high⟩ := h
  rw [SecureHash.fractionBits_root hr w.toNat_lt low high]
  exact BitVec.ofNat_toNat ..

/-- A table whose entries bracket the roots of the primes holds their fraction bits. -/
theorem table_eq {r : Nat} {table : List UInt32} (hr : r ≠ 0)
    (hlen : table.length ≤ primes.length) (h : ∀ x ∈ primes.zip table, Brackets r x.1 x.2) :
    table = (List.range table.length).map fun t ↦
      UInt32.ofBitVec (SecureHash.fractionBits ((Nat.nth Nat.Prime t : ℝ) ^ (r : ℝ)⁻¹)) := by
  apply List.ext_getElem
  · simp
  · intro t ht _
    have htp : t < primes.length := by omega
    have hmem : (primes[t], table[t]) ∈ primes.zip table := by
      apply List.mem_iff_getElem.mpr
      refine ⟨t, ?_, ?_⟩
      · rw [List.length_zip]
        omega
      · rw [List.getElem_zip]
    rw [List.getElem_map, List.getElem_range, SecureHash.nth_prime_of_filter filter_prime htp,
      (h _ hmem).fractionBits hr]

theorem round_eq : round = (List.range 64).map fun t ↦ UInt32.ofBitVec (SecureHash.constant t) :=
  table_eq (by decide) (by decide) brackets_round

theorem initial_eq : initial = lift SecureHash.initial :=
  table_eq (by decide) (by decide) brackets_initial

/-! ## The message schedule -/

/-- Extending the schedule newest word first follows the recurrence of the standard. -/
theorem repeat_extend (block : Nat → Word) (words : List UInt32)
    (h : words = (List.range 16).map fun t ↦ UInt32.ofBitVec (block t)) (n : Nat) :
    Nat.repeat extend n words.reverse =
      ((List.range (16 + n)).map fun t ↦
        UInt32.ofBitVec (SecureHash.schedule block t)).reverse := by
  induction n with
  | zero =>
    rw [Nat.repeat, h]
    congr 1
    apply List.map_congr_left
    intro t ht
    rw [SecureHash.schedule_of_lt block (List.mem_range.mp ht)]
  | succ n ih =>
    have hget : ∀ i < 16, ((List.range (16 + n)).map fun t ↦
        UInt32.ofBitVec (SecureHash.schedule block t)).reverse.getD i 0 =
          UInt32.ofBitVec (SecureHash.schedule block (16 + n - (i + 1))) := by
      intro i hi
      rw [List.getD_eq_getElem _ _ (by simp; omega), List.getElem_reverse, List.getElem_map,
        List.getElem_range]
      congr 2
      simp
      omega
    rw [Nat.repeat, ih, ← Nat.add_assoc, List.range_succ, List.map_append, List.reverse_append]
    simp only [extend, hget _ (by decide : 14 < 16), hget _ (by decide : 1 < 16),
      hget _ (by decide : 15 < 16), hget _ (by decide : 6 < 16)]
    rw [List.map_singleton, List.reverse_singleton, List.singleton_append]
    congr 1
    change UInt32.ofBitVec (_ + SecureHash.smallSigma0 _ + _ + SecureHash.smallSigma1 _) = _
    rw [SecureHash.schedule_of_le block (Nat.le_add_right 16 n)]
    congr 1
    ac_rfl

/-! ## The rounds -/

/-- The rounds of the source over a schedule are the turns of the standard. -/
theorem foldl_step (w : Nat → Word) (v : Variables) (n : Nat) :
    (List.range n).foldl (fun s t ↦
      step s (UInt32.ofBitVec (SecureHash.constant t), UInt32.ofBitVec (w t))) (lift v) =
        lift (SecureHash.turns w v n) := by
  induction n with
  | zero => rfl
  | succ n ih =>
    rw [List.range_succ, List.foldl_append, ih, List.foldl_cons, List.foldl_nil, step_lift]
    rfl

/-- `compress` computes the next hash value from the words of the block. -/
theorem compress_lift (v : Variables) {bytes : Bytes} {block : Nat → Word}
    (h : loadWords bytes = (List.range 16).map fun t ↦ UInt32.ofBitVec (block t)) :
    compress (lift v) bytes =
      lift (SecureHash.add (SecureHash.turns (SecureHash.schedule block) v 64) v) := by
  have hschedule : schedule bytes = (List.range 64).map fun t ↦
      UInt32.ofBitVec (SecureHash.schedule block t) := by
    rw [schedule, repeat_extend block _ h, List.reverse_reverse]
  have hzip : round.zip (schedule bytes) = (List.range 64).map fun t ↦
      (UInt32.ofBitVec (SecureHash.constant t),
        UInt32.ofBitVec (SecureHash.schedule block t)) := by
    rw [hschedule, round_eq, List.zip_map']
  rw [compress, hzip, List.foldl_map, foldl_step, zipWith_lift]

/-! ## Bytes as bits -/

/-- The bits of a string of bytes, the most significant of each byte first. -/
def bits (data : Bytes) : List Bool := data.flatMap fun b ↦ toBits 8 b.toNat

theorem bits_cons (b : UInt8) (data : Bytes) : bits (b :: data) = toBits 8 b.toNat ++ bits data :=
  List.flatMap_cons

theorem bits_append (xs ys : Bytes) : bits (xs ++ ys) = bits xs ++ bits ys :=
  List.flatMap_append

theorem length_bits (data : Bytes) : (bits data).length = 8 * data.length := by
  induction data with
  | nil => rfl
  | cons b data ih =>
    rw [bits_cons, List.length_append, ih, SecureHash.length_toBits, List.length_cons]
    ring

theorem drop_bits (data : Bytes) (n : Nat) : (bits data).drop (8 * n) = bits (data.drop n) := by
  rcases Nat.le_total n data.length with h | h
  · have hsplit := bits_append (data.take n) (data.drop n)
    rw [List.take_append_drop] at hsplit
    rw [hsplit]
    apply List.drop_left'
    rw [length_bits, List.length_take, Nat.min_eq_left h]
  · rw [List.drop_of_length_le h, List.drop_of_length_le (by rw [length_bits]; omega)]
    rfl

theorem take_bits (data : Bytes) (n : Nat) : (bits data).take (8 * n) = bits (data.take n) := by
  rcases Nat.le_total n data.length with h | h
  · have hsplit := bits_append (data.take n) (data.drop n)
    rw [List.take_append_drop] at hsplit
    rw [hsplit]
    apply List.take_left'
    rw [length_bits, List.length_take, Nat.min_eq_left h]
  · rw [List.take_of_length_le h, List.take_of_length_le (by rw [length_bits]; omega)]

theorem ofBits_bits_cons (b : UInt8) (data : Bytes) :
    ofBits (bits (b :: data)) = b.toNat * 2 ^ (8 * data.length) + ofBits (bits data) := by
  rw [bits_cons, SecureHash.ofBits_append, length_bits, SecureHash.ofBits_toBits,
    Nat.mod_eq_of_lt b.toNat_lt]

/-- Four bytes put together are the word their bits denote. -/
theorem loadWord_bits (a b c d : UInt8) :
    ((a.toUInt32 <<< 24) ||| (b.toUInt32 <<< 16) ||| (c.toUInt32 <<< 8) ||| d.toUInt32) =
      UInt32.ofBitVec (BitVec.ofNat 32 (ofBits (bits [a, b, c, d]))) := by
  have ha := a.toNat_lt
  have hb := b.toNat_lt
  have hc := c.toNat_lt
  have hd := d.toNat_lt
  have h8 : c.toNat <<< 8 ||| d.toNat = c.toNat <<< 8 + d.toNat :=
    (Nat.shiftLeft_add_eq_or_of_lt hd _).symm
  have h16 : b.toNat <<< 16 ||| (c.toNat <<< 8 + d.toNat) =
      b.toNat <<< 16 + (c.toNat <<< 8 + d.toNat) :=
    (Nat.shiftLeft_add_eq_or_of_lt (by rw [Nat.shiftLeft_eq]; omega) _).symm
  have h24 : a.toNat <<< 24 ||| (b.toNat <<< 16 + (c.toNat <<< 8 + d.toNat)) =
      a.toNat <<< 24 + (b.toNat <<< 16 + (c.toNat <<< 8 + d.toNat)) :=
    (Nat.shiftLeft_add_eq_or_of_lt (by simp only [Nat.shiftLeft_eq]; omega) _).symm
  have hbits : ofBits (bits [a, b, c, d]) =
      a.toNat * 2 ^ 24 + (b.toNat * 2 ^ 16 + (c.toNat * 2 ^ 8 + d.toNat)) := by
    rw [ofBits_bits_cons, ofBits_bits_cons, ofBits_bits_cons, ofBits_bits_cons]
    simp [bits, ofBits]
  have hshift : ∀ (x : UInt8) (k : UInt32), k.toNat < 32 → x.toNat <<< k.toNat < 2 ^ 32 →
      (x.toUInt32 <<< k).toNat = x.toNat <<< k.toNat := by
    intro x k hk hx
    rw [UInt32.toNat_shiftLeft, UInt8.toNat_toUInt32, Nat.mod_eq_of_lt hk, Nat.mod_eq_of_lt hx]
  apply UInt32.toNat_inj.mp
  rw [UInt32.toNat_or, UInt32.toNat_or, UInt32.toNat_or,
    hshift a 24 (by decide) (by simp [Nat.shiftLeft_eq]; omega),
    hshift b 16 (by decide) (by simp [Nat.shiftLeft_eq]; omega),
    hshift c 8 (by decide) (by simp [Nat.shiftLeft_eq]; omega), UInt8.toNat_toUInt32,
    Nat.or_assoc, Nat.or_assoc]
  change a.toNat <<< 24 ||| (b.toNat <<< 16 ||| (c.toNat <<< 8 ||| d.toNat)) = _
  rw [h8, h16, h24, hbits]
  simp only [Nat.shiftLeft_eq, UInt32.toNat_ofBitVec, BitVec.toNat_ofNat]
  omega

/-- Word `t` of a string of bytes, as the standard reads it off the bits. -/
theorem loadWords_eq (n : Nat) (data : Bytes) (h : data.length = 4 * n) :
    loadWords data = (List.range n).map fun t ↦
      UInt32.ofBitVec (BitVec.ofNat 32 (ofBits (((bits data).drop (32 * t)).take 32))) := by
  induction n generalizing data with
  | zero =>
    rw [List.eq_nil_of_length_eq_zero h]
    rfl
  | succ n ih =>
    match data, h with
    | a :: b :: c :: d :: rest, h =>
      have hrest : rest.length = 4 * n := by
        simp only [List.length_cons] at h
        omega
      rw [loadWords, ih rest hrest, List.range_succ_eq_map, List.map_cons, List.map_map,
        loadWord_bits]
      refine List.cons_eq_cons.mpr ⟨rfl, ?_⟩
      apply List.map_congr_left
      intro t _
      have hdrop : (bits (a :: b :: c :: d :: rest)).drop (32 * (t + 1)) =
          (bits rest).drop (32 * t) := by
        have h32 : 32 * (t + 1) = 8 * (4 * t + 4) := by ring
        have h32' : 32 * t = 8 * (4 * t) := by ring
        rw [h32, h32', drop_bits, drop_bits]
        rfl
      rw [Function.comp_apply, hdrop]

/-- A word written as four bytes has the bits of the word. -/
theorem bits_storeWord (w : UInt32) : bits (storeWord w) = toBits 32 w.toNat := by
  have hbyte : ∀ k : UInt32, k.toNat < 32 →
      toBits 8 (w >>> k).toUInt8.toNat = toBits 8 (w.toNat >>> k.toNat) := by
    intro k hk
    rw [UInt32.toNat_toUInt8, UInt32.toNat_shiftRight, Nat.mod_eq_of_lt hk]
    exact SecureHash.toBits_mod _ (by decide)
  have hlast : toBits 8 w.toUInt8.toNat = toBits 8 w.toNat := by
    rw [UInt32.toNat_toUInt8]
    exact SecureHash.toBits_mod _ (by decide)
  have h32 : toBits (8 + (8 + (8 + 8))) w.toNat =
      toBits 8 (w.toNat >>> 24) ++ (toBits 8 (w.toNat >>> 16) ++
        (toBits 8 (w.toNat >>> 8) ++ toBits 8 w.toNat)) := by
    rw [SecureHash.toBits_add, SecureHash.toBits_add, SecureHash.toBits_add]
  rw [show toBits 32 w.toNat = toBits (8 + (8 + (8 + 8))) w.toNat from rfl, h32]
  simp only [storeWord, bits_cons, hbyte 24 (by decide), hbyte 16 (by decide),
    hbyte 8 (by decide), hlast]
  rfl

/-! ## Blocks and padding -/

/-- The words after whole blocks are the hash values of the standard. -/
theorem foldl_blocks (data : Bytes) : (blocks data).foldl compress initial =
    lift (SecureHash.hash (bits data) (data.length / 64)) := by
  have hfront : ∀ n ≤ data.length / 64,
      ((List.range n).map fun i ↦ (data.drop (i * 64)).take 64).foldl compress initial =
        lift (SecureHash.hash (bits data) n) := by
    intro n
    induction n with
    | zero =>
      intro _
      exact initial_eq
    | succ n ih =>
      intro hn
      have hwords : loadWords ((data.drop (n * 64)).take 64) = (List.range 16).map fun t ↦
          UInt32.ofBitVec (SecureHash.messageWord (bits data) n t) := by
        rw [loadWords_eq 16 _ (by rw [List.length_take, List.length_drop]; omega)]
        apply List.map_congr_left
        intro t ht
        have ht := List.mem_range.mp ht
        have hword : ((bits ((data.drop (n * 64)).take 64)).drop (32 * t)).take 32 =
            ((bits data).drop (512 * n + 32 * t)).take 32 := by
          have h32 : 32 * t = 8 * (4 * t) := by ring
          have h512 : 512 * n + 32 * t = 8 * (n * 64 + 4 * t) := by ring
          rw [h512, h32, drop_bits, drop_bits, List.drop_take, List.drop_drop,
            show 32 = 8 * 4 from rfl, take_bits, take_bits, List.take_take,
            Nat.min_eq_left (by omega)]
        rw [hword, SecureHash.messageWord]
      rw [List.range_succ, List.map_append, List.foldl_append, ih (by omega), List.map_singleton,
        List.foldl_cons, List.foldl_nil, compress_lift _ hwords]
      rfl
  exact hfront _ (Nat.le_refl _)

theorem bits_replicate (n : Nat) :
    bits (List.replicate n 0) = List.replicate (8 * n) false := by
  induction n with
  | zero => rfl
  | succ n ih =>
    rw [List.replicate_succ, bits_cons, ih, Nat.mul_add, Nat.mul_one, Nat.add_comm,
      List.replicate_add]
    rfl

/-- Eight bytes of a count are its sixty-four bits. -/
theorem bits_count (n : UInt64) :
    bits ([56, 48, 40, 32, 24, 16, 8, 0].map fun s : UInt64 ↦ (n >>> s).toUInt8) =
      toBits 64 n.toNat := by
  have hbyte : ∀ k : UInt64, k.toNat < 64 →
      toBits 8 (n >>> k).toUInt8.toNat = toBits 8 (n.toNat >>> k.toNat) := by
    intro k hk
    rw [UInt64.toNat_toUInt8, UInt64.toNat_shiftRight, Nat.mod_eq_of_lt hk]
    exact SecureHash.toBits_mod _ (by decide)
  have hsplit : ∀ low m : Nat, toBits (8 + low) m = toBits 8 (m >>> low) ++ toBits low m :=
    fun low m ↦ SecureHash.toBits_add 8 low m
  simp only [List.map_cons, List.map_nil, bits_cons, hbyte 56 (by decide), hbyte 48 (by decide),
    hbyte 40 (by decide), hbyte 32 (by decide), hbyte 24 (by decide), hbyte 16 (by decide),
    hbyte 8 (by decide), hbyte 0 (by decide)]
  rw [show toBits 64 n.toNat = toBits (8 + 56) n.toNat from rfl, hsplit,
    show toBits 56 n.toNat = toBits (8 + 48) n.toNat from rfl, hsplit,
    show toBits 48 n.toNat = toBits (8 + 40) n.toNat from rfl, hsplit,
    show toBits 40 n.toNat = toBits (8 + 32) n.toNat from rfl, hsplit,
    show toBits 32 n.toNat = toBits (8 + 24) n.toNat from rfl, hsplit,
    show toBits 24 n.toNat = toBits (8 + 16) n.toNat from rfl, hsplit,
    show toBits 16 n.toNat = toBits (8 + 8) n.toNat from rfl, hsplit,
    show toBits 8 n.toNat = toBits (8 + 0) n.toNat from rfl, hsplit]
  rfl

/-- The zeros the standard asks for are the rest of the marker byte and whole zero bytes. -/
theorem zeros_bits (n : Nat) : SecureHash.zeros (8 * n) = 7 + 8 * ((119 - n % 64) % 64) := by
  apply SecureHash.zeros_eq
  · unfold Nat.ModEq
    omega
  · omega

/-- The source pads with the bits of the standard. -/
theorem bits_pad (data : Bytes) : bits (pad data) = SecureHash.pad (bits data) := by
  have hcount : (data.length.toUInt64 * 8).toNat = 8 * data.length % 2 ^ 64 := by
    rw [UInt64.toNat_mul]
    simp [Nat.toUInt64, Nat.mul_comm]
  have hzeros : bits (0x80 :: List.replicate ((119 - data.length % 64) % 64) 0) =
      true :: List.replicate (7 + 8 * ((119 - data.length % 64) % 64)) false := by
    rw [bits_cons, bits_replicate, List.replicate_add]
    rfl
  rw [pad, bits_append, bits_append, hzeros, bits_count, hcount,
    SecureHash.toBits_mod _ (Nat.le_refl 64), SecureHash.pad, length_bits, zeros_bits]

theorem bits_flatMap_storeWord (ws : List UInt32) :
    bits (ws.flatMap storeWord) = ws.flatMap fun w ↦ toBits 32 w.toNat := by
  induction ws with
  | nil => rfl
  | cons w ws ih => rw [List.flatMap_cons, bits_append, ih, bits_storeWord, List.flatMap_cons]

/-- The digest of a message has the bits of the standard's digest. -/
theorem bits_sha256 (data : Bytes) :
    bits (OffloadFabric.sha256 data).bytes = SecureHash.sha256 (bits data) := by
  have hlen : (pad data).length / 64 = (SecureHash.pad (bits data)).length / 512 := by
    rw [← bits_pad, length_bits]
    omega
  have hwords : words data = lift (SecureHash.hash (SecureHash.pad (bits data))
      ((SecureHash.pad (bits data)).length / 512)) := by
    rw [words, foldl_blocks, bits_pad, hlen]
  change bits ((words data).flatMap storeWord) = _
  rw [bits_flatMap_storeWord, hwords, lift, List.flatMap_map]
  rfl

/-- Whatever pieces a message is fed in, finishing returns the standard's digest of the whole. The
standard stops at `2 ^ 64` bits, where both sides go on with the low bits of the count. -/
theorem finish_standard (pieces : List Bytes) :
    bits (Hasher.start.updates pieces).finish.2.bytes =
      SecureHash.sha256 (bits pieces.flatten) := by
  rw [Hasher.finish_updates, bits_sha256]

end OffloadFabric.Sha256
