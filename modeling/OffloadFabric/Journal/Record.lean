import OffloadFabric.Base.Crc32c
import OffloadFabric.Journal.Log
import OffloadFabric.Lib.Framed

/-!
# Journal records

The bytes of a record as `src/journal.cpp:18-28,643-655` lays them out. A record whose payload
fits the four length bytes is a frame and is read back from it; every frame with a known type is
such a record.
-/

namespace OffloadFabric

open Lib

namespace Journal

/-- `kJournalHeaderSize`, `src/journal.cpp:23`. -/
def headerSize : Nat := 64

/-- `kRecordHeaderSize`, `src/journal.cpp:24`. -/
def recordHeaderSize : Nat := 20

/-- `kRecordTrailerSize`, `src/journal.cpp:25`. -/
def recordTrailerSize : Nat := 4

/-- Records as frames: the payload length stands in front. -/
def framing : Framing where
  headerSize := recordHeaderSize
  lengthAt := 0
  lengthInside := by decide
  checksum := crc32c
  detects := crc32c_ne_of_byte

end Journal

/-- A journal record. `append` writes no flags (`kRecordFlagNone`) and leaves the last four bytes
of the header zero, `src/journal.cpp:643-647`. -/
structure JournalRecord where
  type : RecordType
  sequence : UInt64
  payload : Bytes
  flags : UInt16 := 0
  reserved : UInt32 := 0
  deriving DecidableEq, Repr

namespace JournalRecord

/-- The record header, `src/journal.cpp:643-647`: a longer payload than the length field holds
leaves its length modulo the field. -/
def header (r : JournalRecord) : Bytes :=
  le 4 r.payload.length ++ le 2 r.type.code.toNat ++ le 2 r.flags.toNat ++
    le 8 r.sequence.toNat ++ le 4 r.reserved.toNat

/-- The bytes of a record, `src/journal.cpp:643-655`. -/
def bytes (r : JournalRecord) : Bytes := Journal.framing.sealed (r.header ++ r.payload)

/-- `record_size`, `src/journal.cpp:619-622`. -/
def size (r : JournalRecord) : Nat :=
  Journal.recordHeaderSize + r.payload.length + Journal.recordTrailerSize

/-- The record in the bytes of a frame. -/
def ofBytes (type : RecordType) (data : Bytes) : JournalRecord where
  type := type
  sequence := .ofNat (field 8 8 data)
  payload := (data.drop Journal.recordHeaderSize).take (Journal.framing.declared data)
  flags := .ofNat (field 2 6 data)
  reserved := .ofNat (field 4 16 data)

/-! ## Reading the bytes back -/

variable (r : JournalRecord) (rest : Bytes)

@[simp] theorem length_header : r.header.length = Journal.recordHeaderSize := by
  simp [header, Journal.recordHeaderSize]

@[simp] theorem length_bytes : r.bytes.length = r.size := by
  simp [bytes, size, Journal.recordHeaderSize, Journal.recordTrailerSize]

theorem size_pos : 0 < r.size := by
  simp only [size, Journal.recordHeaderSize]
  omega

private theorem bytes_append : r.bytes ++ rest =
    le 4 r.payload.length ++ (le 2 r.type.code.toNat ++ (le 2 r.flags.toNat ++
      (le 8 r.sequence.toNat ++ (le 4 r.reserved.toNat ++
        (r.payload ++ (le 4 (crc32c (r.header ++ r.payload)).toNat ++ rest)))))) := by
  simp [bytes, Framing.sealed, header, Journal.framing]

/-- The length field holds the payload length, modulo its width. -/
theorem declared_bytes :
    Journal.framing.declared (r.bytes ++ rest) = r.payload.length % 2 ^ 32 := by
  rw [bytes_append]
  exact field_zero_le 4 _ _

theorem type_bytes : field 2 4 (r.bytes ++ rest) = r.type.code.toNat := by
  have hlt := r.type.code.toNat_lt
  simp (disch := omega) only [bytes_append, field_skip, Nat.sub_self, field_zero_le]
  exact Nat.mod_eq_of_lt hlt

theorem flags_bytes : field 2 6 (r.bytes ++ rest) = r.flags.toNat := by
  simp (disch := omega) only [bytes_append, field_skip, Nat.reduceSub, field_zero_le]
  exact Nat.mod_eq_of_lt r.flags.toNat_lt

theorem sequence_bytes : field 8 8 (r.bytes ++ rest) = r.sequence.toNat := by
  simp (disch := omega) only [bytes_append, field_skip, Nat.reduceSub, field_zero_le]
  exact Nat.mod_eq_of_lt r.sequence.toNat_lt

theorem reserved_bytes : field 4 16 (r.bytes ++ rest) = r.reserved.toNat := by
  simp (disch := omega) only [bytes_append, field_skip, Nat.reduceSub, field_zero_le]
  exact Nat.mod_eq_of_lt r.reserved.toNat_lt

/-- The payload length fits the length field. -/
def Fits (r : JournalRecord) : Prop := r.payload.length < 2 ^ 32

instance (r : JournalRecord) : Decidable r.Fits := inferInstanceAs (Decidable (_ < _))

variable {r rest}

theorem Fits.declared (h : r.Fits) :
    Journal.framing.declared (r.bytes ++ rest) = r.payload.length := by
  rw [declared_bytes, Nat.mod_eq_of_lt h]

theorem Fits.total (h : r.Fits) : Journal.framing.total (r.bytes ++ rest) = r.size := by
  simp only [Framing.total, h.declared, size]
  rfl

theorem Fits.framed (h : r.Fits) : Journal.framing.Framed r.bytes := by
  have hlen : (r.header ++ r.payload).length = 20 + r.payload.length := by
    simp [Journal.recordHeaderSize]
  refine (Framing.framed_sealed (by rw [hlen]; exact Nat.le_add_right _ _)).mpr ?_
  have h' : Journal.framing.declared (r.bytes ++ []) = _ := h.declared
  rw [List.append_nil, bytes, Framing.sealed, Framing.declared_append] at h'
  · rw [h', hlen]
    rfl
  · rw [hlen]
    exact Nat.le_add_right _ _

/-- A record is read back from its bytes. -/
theorem Fits.ofBytes_bytes (h : r.Fits) : ofBytes r.type r.bytes = r := by
  have hpayload : (r.bytes.drop Journal.recordHeaderSize).take
      (Journal.framing.declared r.bytes) = r.payload := by
    have hdeclared : Journal.framing.declared (r.bytes ++ []) = _ := h.declared
    rw [List.append_nil] at hdeclared
    have hdrop : r.bytes.drop Journal.recordHeaderSize =
        r.payload ++ le 4 (crc32c (r.header ++ r.payload)).toNat := by
      simp only [bytes, Framing.sealed, List.append_assoc]
      rw [← length_header r, List.drop_left]
      rfl
    rw [hdeclared, hdrop, List.take_left]
  have hsequence := sequence_bytes r []
  have hflags := flags_bytes r []
  have hreserved := reserved_bytes r []
  rw [List.append_nil] at hsequence hflags hreserved
  simp only [ofBytes, hpayload, hsequence, hflags, hreserved]
  simp

end JournalRecord

instance : LawfulCoded RecordType where
  code_of_ofCode? {n a} h := by
    change RecordType.ofCode? n = some a at h
    unfold RecordType.ofCode? at h
    split at h <;> cases h <;> rfl

namespace JournalRecord

variable {data : Bytes} {type : RecordType}

theorem length_payload_ofBytes (h : Journal.framing.Framed data) :
    (ofBytes type data).payload.length = Journal.framing.declared data := by
  have hsize := h.size
  simp only [Framing.total, Journal.framing] at hsize
  simp only [ofBytes, List.length_take, List.length_drop, Journal.framing]
  omega

theorem fits_ofBytes (h : Journal.framing.Framed data) : (ofBytes type data).Fits := by
  rw [Fits, length_payload_ofBytes h]
  exact Framing.declared_lt data

private theorem header_ofBytes (h : Journal.framing.Framed data)
    (htype : RecordType.ofCode? (.ofNat (field 2 4 data)) = some type) :
    (ofBytes type data).header = data.take 20 := by
  have hle : 24 ≤ data.length := h.header_le
  have hcode : type.code.toNat = field 2 4 data := by
    have hlt := field_lt 2 4 data
    have hc : Coded.code type = .ofNat (field 2 4 data) := LawfulCoded.code_of_ofCode? htype
    change (Coded.code type).toNat = _
    rw [hc]
    exact UInt16.toNat_ofNat_of_lt' (by simpa using hlt)
  have hflags : (ofBytes type data).flags.toNat = field 2 6 data :=
    UInt16.toNat_ofNat_of_lt' (by simpa using field_lt 2 6 data)
  have hsequence : (ofBytes type data).sequence.toNat = field 8 8 data :=
    UInt64.toNat_ofNat_of_lt' (by simpa using field_lt 8 8 data)
  have hreserved : (ofBytes type data).reserved.toNat = field 4 16 data :=
    UInt32.toNat_ofNat_of_lt' (by simpa using field_lt 4 16 data)
  have hlength : le 4 (ofBytes type data).payload.length = data.take 4 := by
    rw [length_payload_ofBytes h]
    exact @le_field 4 0 data (by omega)
  rw [header, hlength, show (ofBytes type data).type = type from rfl, hcode, hflags, hsequence,
    hreserved]
  rw [take_append_field (by omega), take_append_field (by omega), take_append_field (by omega),
    take_append_field (by omega)]

/-- **Every frame with a known type is a record.** -/
theorem bytes_ofBytes (h : Journal.framing.Framed data)
    (htype : RecordType.ofCode? (.ofNat (field 2 4 data)) = some type) :
    (ofBytes type data).bytes = data := by
  have hle : 24 ≤ data.length := h.header_le
  have hsize : data.length = 20 + Journal.framing.declared data + 4 := h.size
  have hbody : (ofBytes type data).header ++ (ofBytes type data).payload =
      data.take (data.length - 4) := by
    rw [header_ofBytes h htype, show data.length - 4 = 20 + Journal.framing.declared data by omega,
      List.take_add]
    rfl
  have hsum := h.sum
  rw [bytes, hbody, Framing.sealed, ← hsum, take_append_field (by omega),
    List.take_of_length_le (by omega)]

end JournalRecord

end OffloadFabric
