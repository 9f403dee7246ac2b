import OffloadFabric.Lib.Layout

/-!
# Length-prefixed checksummed frames

A frame is a header of fixed size with the payload length in four of its bytes, the payload, and
a checksum over both in the last four. Frames are read off the front of a byte string without a
separator: a frame is never a prefix of another, a cut inside a frame shows, and so does one
changed byte when the checksum detects it.
-/

namespace OffloadFabric.Lib

/-- The little-endian number in the given bytes of a string. -/
def field (width offset : Nat) (data : List UInt8) : Nat := ofLe ((data.drop offset).take width)

theorem ofLe_append (a b : List UInt8) : ofLe (a ++ b) = ofLe a + 256 ^ a.length * ofLe b := by
  induction a with
  | nil => simp [ofLe]
  | cons x xs ih =>
    simp only [List.cons_append, ofLe, ih, List.length_cons, pow_succ]
    rw [Nat.mul_add, ← Nat.mul_assoc, Nat.mul_comm 256 (256 ^ xs.length), Nat.add_assoc]

theorem field_lt (width offset : Nat) (data : List UInt8) :
    field width offset data < 256 ^ width := by
  have h := ofLe_lt ((data.drop offset).take width)
  have hlen : ((data.drop offset).take width).length ≤ width := by simp
  exact h.trans_le (Nat.pow_le_pow_right (by omega) hlen)

/-- A field is read from its own bytes. -/
theorem field_append {width offset : Nat} {a : List UInt8} (b : List UInt8)
    (h : offset + width ≤ a.length) : field width offset (a ++ b) = field width offset a := by
  simp only [field]
  rw [List.drop_append_of_le_length (by omega), List.take_append_of_le_length]
  simp
  omega

theorem field_take {width offset n : Nat} (data : List UInt8) (h : offset + width ≤ n) :
    field width offset (data.take n) = field width offset data := by
  simp only [field, List.drop_take, List.take_take]
  congr 2
  omega

/-- A field read where it was written. -/
@[simp] theorem field_zero_le (width v : Nat) (s : List UInt8) :
    field width 0 (le width v ++ s) = v % 256 ^ width := by
  simp only [field, List.drop_zero]
  rw [List.take_append_of_le_length (by simp), List.take_of_length_le (by simp), ofLe_le]

/-- A field behind other bytes. -/
theorem field_behind {width offset : Nat} {a : List UInt8} (s : List UInt8)
    (h : a.length ≤ offset) : field width offset (a ++ s) = field width (offset - a.length) s := by
  have hoffset : offset = a.length + (offset - a.length) := by omega
  simp only [field]
  rw [hoffset, List.drop_length_add_append]
  congr 3
  omega

/-- A field behind another one. -/
theorem field_skip {width offset n : Nat} (v : Nat) (s : List UInt8) (h : n ≤ offset) :
    field width offset (le n v ++ s) = field width (offset - n) s := by
  rw [field_behind s (by rwa [length_le]), length_le]

/-- Writing a field that was read gives its own bytes. -/
theorem le_field {width offset : Nat} {data : List UInt8} (h : offset + width ≤ data.length) :
    le width (field width offset data) = (data.drop offset).take width := by
  have hlen : ((data.drop offset).take width).length = width := by simp; omega
  have := le_ofLe ((data.drop offset).take width)
  rwa [hlen] at this

/-- Behind the bytes up to a field come the field's own. -/
theorem take_append_field {width offset : Nat} {data : List UInt8}
    (h : offset + width ≤ data.length) :
    data.take offset ++ le width (field width offset data) = data.take (offset + width) := by
  rw [le_field h, List.take_add]

/-- Two numbers that differ in one byte differ. -/
theorem ofLe_ne_of_byte {b b' : UInt8} (h : b ≠ b') (p s : List UInt8) :
    ofLe (p ++ b :: s) ≠ ofLe (p ++ b' :: s) := by
  have hb : b.toNat ≠ b'.toNat := fun heq ↦ h (UInt8.toNat_inj.mp heq)
  have hlt := b.toNat_lt
  have hlt' := b'.toNat_lt
  induction p with
  | nil => simp only [List.nil_append, ofLe]; omega
  | cons x xs ih => simp only [List.cons_append, ofLe]; omega

theorem drop_middle {p : List UInt8} {n : Nat} (b : UInt8) (s : List UInt8)
    (h : n ≤ p.length) : (p ++ b :: s).drop n = p.drop n ++ b :: s :=
  List.drop_append_of_le_length h

theorem take_middle {p : List UInt8} {n : Nat} (b : UInt8) (s : List UInt8)
    (h : p.length < n) : (p ++ b :: s).take n = p ++ b :: s.take (n - p.length - 1) := by
  obtain ⟨k, rfl⟩ : ∃ k, n = p.length + (k + 1) := ⟨n - p.length - 1, by omega⟩
  rw [List.take_length_add_append, List.take_succ_cons]
  congr 3
  omega

/-- Changing a byte of a field changes its number. -/
theorem field_ne_of_byte {width offset : Nat} {b b' : UInt8} (h : b ≠ b') {p : List UInt8}
    (s : List UInt8) (hlo : offset ≤ p.length) (hhi : p.length < offset + width) :
    field width offset (p ++ b :: s) ≠ field width offset (p ++ b' :: s) := by
  have hdrop : (p.drop offset).length < width := by simp; omega
  simp only [field, drop_middle _ _ hlo, take_middle _ _ hdrop]
  exact ofLe_ne_of_byte h _ _

/-- Changing a byte elsewhere leaves the field. -/
theorem field_eq_of_byte {width offset : Nat} (b b' : UInt8) {p : List UInt8} (s : List UInt8)
    (h : p.length < offset ∨ offset + width ≤ p.length) :
    field width offset (p ++ b :: s) = field width offset (p ++ b' :: s) := by
  rcases h with h | h
  · have hdrop (c : UInt8) : (p ++ c :: s).drop offset = s.drop (offset - p.length - 1) := by
      obtain ⟨k, rfl⟩ : ∃ k, offset = p.length + (k + 1) := ⟨offset - p.length - 1, by omega⟩
      rw [List.drop_length_add_append, List.drop_succ_cons]
      congr 1
      omega
    simp only [field, hdrop]
  · simp only [field_append _ h]

/-- The layout of a frame and its checksum, which tells byte strings apart that differ in one
byte. -/
structure Framing where
  headerSize : Nat
  lengthAt : Nat
  lengthInside : lengthAt + 4 ≤ headerSize
  checksum : List UInt8 → UInt32
  detects : ∀ {b b' : UInt8}, b ≠ b' → ∀ p s, checksum (p ++ b :: s) ≠ checksum (p ++ b' :: s)

namespace Framing

variable (f : Framing)

/-- The payload length a header declares. -/
def declared (data : List UInt8) : Nat := field 4 f.lengthAt data

/-- The size of the frame a header declares. -/
def total (data : List UInt8) : Nat := f.headerSize + f.declared data + 4

/-- The bytes are one whole frame. -/
structure Framed (data : List UInt8) : Prop where
  size : data.length = f.total data
  sum : field 4 (data.length - 4) data = (f.checksum (data.take (data.length - 4))).toNat

/-- The bytes end inside the frame they begin. -/
def Partial (data : List UInt8) : Prop :=
  data.length < f.headerSize + 4 ∨ data.length < f.total data

/-- Close a header and a payload with their checksum. -/
def sealed (body : List UInt8) : List UInt8 := body ++ le 4 (f.checksum body).toNat

variable {f} {data : List UInt8}

theorem declared_lt (data : List UInt8) : f.declared data < 2 ^ 32 := by
  have h := field_lt 4 f.lengthAt data
  simpa [declared] using h

theorem declared_append {a : List UInt8} (b : List UInt8) (h : f.headerSize ≤ a.length) :
    f.declared (a ++ b) = f.declared a :=
  field_append b (by have := f.lengthInside; omega)

theorem total_append {a : List UInt8} (b : List UInt8) (h : f.headerSize ≤ a.length) :
    f.total (a ++ b) = f.total a := by
  simp only [total, declared_append b h]

theorem declared_take {n : Nat} (data : List UInt8) (h : f.headerSize ≤ n) :
    f.declared (data.take n) = f.declared data :=
  field_take data (by have := f.lengthInside; omega)

theorem total_take {n : Nat} (data : List UInt8) (h : f.headerSize ≤ n) :
    f.total (data.take n) = f.total data := by
  simp only [total, declared_take data h]

theorem Framed.header_le (h : f.Framed data) : f.headerSize + 4 ≤ data.length := by
  have := h.size
  simp only [total] at this
  omega

@[simp] theorem length_sealed (body : List UInt8) : (f.sealed body).length = body.length + 4 := by
  simp [sealed]

/-- A sealed body is a frame exactly when its header declares its own payload. -/
theorem framed_sealed {body : List UInt8} (h : f.headerSize ≤ body.length) :
    f.Framed (f.sealed body) ↔ body.length = f.headerSize + f.declared body := by
  have hdeclared : f.total (f.sealed body) = f.headerSize + f.declared body + 4 := by
    simp only [total, sealed, declared_append _ h]
  constructor
  · intro hf
    have := hf.size
    rw [hdeclared, length_sealed] at this
    omega
  · intro hlen
    refine ⟨by rw [hdeclared, length_sealed, hlen], ?_⟩
    have hlt := (f.checksum body).toNat_lt
    simp only [length_sealed, Nat.add_sub_cancel]
    simp only [sealed, List.take_left, field, List.drop_left]
    rw [List.take_of_length_le (by simp), ofLe_le, Nat.mod_eq_of_lt (by omega)]

/-- A frame in front of other bytes is found by its own header. -/
theorem Framed.take_total (h : f.Framed data) (rest : List UInt8) :
    (data ++ rest).take (f.total (data ++ rest)) = data := by
  have := h.header_le
  rw [total_append rest (by omega), ← h.size, List.take_left]

/-- A proper part of a frame ends inside it. -/
theorem Framed.partial_take (h : f.Framed data) {n : Nat} (hn : n < data.length) :
    f.Partial (data.take n) := by
  have hlen : (data.take n).length = n := by simp; omega
  by_cases hshort : n < f.headerSize + 4
  · left
    omega
  · right
    rw [total_take data (by omega), ← h.size]
    omega

/-- **One changed byte is seen by the checksum.** -/
theorem Framed.not_framed {b b' : UInt8} {p s : List UInt8} (h : f.Framed (p ++ b :: s))
    (hne : b ≠ b') : ¬ f.Framed (p ++ b' :: s) := by
  intro h'
  have hlen : (p ++ b' :: s).length = (p ++ b :: s).length := by simp
  have hsum := h.sum
  have hsum' := h'.sum
  rw [hlen] at hsum'
  by_cases hbody : p.length < (p ++ b :: s).length - 4
  · rw [field_eq_of_byte b b' s (.inl hbody), hsum', take_middle _ _ hbody,
      take_middle _ _ hbody] at hsum
    exact f.detects hne _ _ (UInt32.toNat_inj.mp hsum).symm
  · have hle := h.header_le
    have htake (c : UInt8) : (p ++ c :: s).take ((p ++ b :: s).length - 4) =
        p.take ((p ++ b :: s).length - 4) := by
      rw [List.take_append_of_le_length (by omega)]
    rw [htake, ← htake b', ← hsum'] at hsum
    refine field_ne_of_byte hne s (by omega) ?_ hsum
    simp
    omega

/-- **One changed byte of the length declares another size.** -/
theorem total_ne_of_byte {b b' : UInt8} (hne : b ≠ b') {p : List UInt8} (s : List UInt8)
    (hlo : f.lengthAt ≤ p.length) (hhi : p.length < f.lengthAt + 4) :
    f.total (p ++ b :: s) ≠ f.total (p ++ b' :: s) := by
  have := @field_ne_of_byte 4 f.lengthAt b b' hne p s hlo hhi
  simp only [total, declared]
  omega

end Framing

end OffloadFabric.Lib
