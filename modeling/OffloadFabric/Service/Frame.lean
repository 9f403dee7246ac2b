import OffloadFabric.Base.Crc32c
import OffloadFabric.Base.ReasonCode
import OffloadFabric.Lib.Framed

/-!
# Service frames

`encode_frame` and `decode_frame` (`src/service.cpp:167-229`). What is decoded is the encoding of
a frame whose payload the length field holds, and every such frame within the limit is decoded.
-/

namespace OffloadFabric

open Lib

namespace Service

/-- `kProtocolVersion`, `include/nof/version.hpp:21`. -/
def protocolVersion : UInt16 := 1

/-- `kFrameHeaderBytes`, `include/nof/service.hpp:71`. -/
def frameHeaderBytes : Nat := 20

/-- `kFrameTrailerBytes`, `include/nof/service.hpp:72`. -/
def frameTrailerBytes : Nat := 4

/-- `kFrameMagic`, `include/nof/service.hpp:73`. -/
def frameMagic : UInt16 := 0x4E46

/-- The layout of a frame: the payload length stands at the end of the header. -/
def framing : Framing where
  headerSize := frameHeaderBytes
  lengthAt := 16
  lengthInside := by decide
  checksum := crc32c
  detects := crc32c_ne_of_byte

/-- `FrameLimits`, `include/nof/service.hpp:64-66`. -/
structure FrameLimits where
  maxFrameBytes : UInt64 := 1048576
  deriving DecidableEq, Repr

/-- `Frame`, `include/nof/service.hpp:55-62`. A frame carries every opcode number, also those of
no `Opcode`. -/
structure Frame where
  opcode : UInt16
  flags : UInt16 := 0
  requestId : UInt64 := 0
  payload : Bytes := []
  deriving DecidableEq, Repr

namespace Frame

/-- The header of a frame, `src/service.cpp:176-181`: a longer payload than the length field holds
leaves its length modulo the field. -/
def header (frame : Frame) : Bytes :=
  le 2 frameMagic.toNat ++ le 2 protocolVersion.toNat ++ le 2 frame.opcode.toNat ++
    le 2 frame.flags.toNat ++ le 8 frame.requestId.toNat ++ le 4 frame.payload.length

/-- The bytes of a frame, `src/service.cpp:175-187`. -/
def bytes (frame : Frame) : Bytes := framing.sealed (frame.header ++ frame.payload)

/-- The size of the bytes, `src/service.cpp:171-173`. -/
def size (frame : Frame) : Nat := frameHeaderBytes + frame.payload.length + frameTrailerBytes

/-- The frame in its bytes, `src/service.cpp:222-228`. -/
def ofBytes (data : Bytes) : Frame where
  opcode := .ofNat (field 2 4 data)
  flags := .ofNat (field 2 6 data)
  requestId := .ofNat (field 8 8 data)
  payload := (data.drop frameHeaderBytes).take (framing.declared data)

end Frame

/-- `encode_frame`, `src/service.cpp:167-190`. -/
def encodeFrame (frame : Frame) (limits : FrameLimits) : Result Bytes := do
  require (frame.payload.length ≤ limits.maxFrameBytes.toNat)
    ⟨.payloadTooLarge, "frame payload exceeds the configured bound"⟩
  require (frame.size < 2 ^ 64) ⟨.arithmeticOverflow, "frame size overflow"⟩
  return frame.bytes

/-- `decode_frame`, `src/service.cpp:192-229`. -/
def decodeFrame (data : Bytes) (limits : FrameLimits) : Result Frame := do
  require (frameHeaderBytes + frameTrailerBytes ≤ data.length)
    ⟨.truncatedInput, "frame is shorter than its header"⟩
  require (field 2 0 data = frameMagic.toNat) ⟨.frameInvalid, "frame magic does not match"⟩
  require (field 2 2 data = protocolVersion.toNat)
    ⟨.protocolVersionMismatch, "frame protocol version is not supported"⟩
  require (framing.declared data ≤ limits.maxFrameBytes.toNat)
    ⟨.payloadTooLarge, "frame payload length exceeds the configured bound"⟩
  require (framing.total data < 2 ^ 64) ⟨.arithmeticOverflow, "frame length overflow"⟩
  require (data.length = framing.total data)
    ⟨.frameInvalid, "frame length does not match its header"⟩
  require (field 4 (framing.total data - frameTrailerBytes) data =
      (crc32c (data.take (framing.total data - frameTrailerBytes))).toNat)
    ⟨.integrityFailure, "frame integrity check failed"⟩
  return .ofBytes data

/-! ## Reading the bytes back -/

theorem total_lt (data : Bytes) : framing.total data < 2 ^ 64 := by
  have h := Framing.declared_lt (f := framing) data
  simp only [Framing.total, framing, frameHeaderBytes] at *
  omega

namespace Frame

variable (frame : Frame) (rest : Bytes)

@[simp] theorem length_header : frame.header.length = frameHeaderBytes := by
  simp [header, frameHeaderBytes]

@[simp] theorem length_bytes : frame.bytes.length = frame.size := by
  simp [bytes, size, frameHeaderBytes, frameTrailerBytes]

theorem header_le_size : frameHeaderBytes + frameTrailerBytes ≤ frame.size := by
  simp only [size]
  omega

private theorem bytes_append : frame.bytes ++ rest =
    le 2 frameMagic.toNat ++ (le 2 protocolVersion.toNat ++ (le 2 frame.opcode.toNat ++
      (le 2 frame.flags.toNat ++ (le 8 frame.requestId.toNat ++ (le 4 frame.payload.length ++
        (frame.payload ++ (le 4 (crc32c (frame.header ++ frame.payload)).toNat ++ rest))))))) := by
  simp [bytes, Framing.sealed, header, framing]

theorem magic_bytes : field 2 0 (frame.bytes ++ rest) = frameMagic.toNat := by
  rw [bytes_append]
  exact field_zero_le 2 _ _

theorem version_bytes : field 2 2 (frame.bytes ++ rest) = protocolVersion.toNat := by
  simp (disch := omega) only [bytes_append, field_skip, Nat.sub_self, field_zero_le]
  rfl

theorem opcode_bytes : field 2 4 (frame.bytes ++ rest) = frame.opcode.toNat := by
  simp (disch := omega) only [bytes_append, field_skip, Nat.reduceSub, field_zero_le]
  exact Nat.mod_eq_of_lt frame.opcode.toNat_lt

theorem flags_bytes : field 2 6 (frame.bytes ++ rest) = frame.flags.toNat := by
  simp (disch := omega) only [bytes_append, field_skip, Nat.reduceSub, field_zero_le]
  exact Nat.mod_eq_of_lt frame.flags.toNat_lt

theorem requestId_bytes : field 8 8 (frame.bytes ++ rest) = frame.requestId.toNat := by
  simp (disch := omega) only [bytes_append, field_skip, Nat.reduceSub, field_zero_le]
  exact Nat.mod_eq_of_lt frame.requestId.toNat_lt

/-- The length field holds the payload length, modulo its width. -/
theorem declared_bytes :
    framing.declared (frame.bytes ++ rest) = frame.payload.length % 2 ^ 32 := by
  change field 4 16 _ = _
  simp (disch := omega) only [bytes_append, field_skip, Nat.reduceSub, field_zero_le]
  rfl

/-- The payload length fits the length field. -/
def Fits (frame : Frame) : Prop := frame.payload.length < 2 ^ 32

instance (frame : Frame) : Decidable frame.Fits := inferInstanceAs (Decidable (_ < _))

variable {frame rest}

theorem Fits.declared (h : frame.Fits) :
    framing.declared (frame.bytes ++ rest) = frame.payload.length := by
  rw [declared_bytes, Nat.mod_eq_of_lt h]

theorem Fits.total (h : frame.Fits) : framing.total (frame.bytes ++ rest) = frame.size := by
  simp only [Framing.total, h.declared, size]
  rfl

theorem Fits.framed (h : frame.Fits) : framing.Framed frame.bytes := by
  have hlen : (frame.header ++ frame.payload).length = 20 + frame.payload.length := by
    simp [frameHeaderBytes]
  have hheader : framing.headerSize ≤ (frame.header ++ frame.payload).length := by
    rw [hlen]
    exact Nat.le_add_right _ _
  apply (Framing.framed_sealed hheader).mpr
  have hdeclared : framing.declared (frame.bytes ++ []) = _ := h.declared
  rw [List.append_nil, bytes, Framing.sealed, Framing.declared_append _ hheader] at hdeclared
  rw [hdeclared, hlen]
  rfl

/-- A frame is read back from its bytes. -/
theorem Fits.ofBytes_bytes (h : frame.Fits) : ofBytes frame.bytes = frame := by
  have hpayload : (frame.bytes.drop frameHeaderBytes).take (framing.declared frame.bytes) =
      frame.payload := by
    have hdeclared : framing.declared (frame.bytes ++ []) = _ := h.declared
    rw [List.append_nil] at hdeclared
    have hdrop : frame.bytes.drop frameHeaderBytes =
        frame.payload ++ le 4 (crc32c (frame.header ++ frame.payload)).toNat := by
      simp only [bytes, Framing.sealed, List.append_assoc]
      rw [← length_header frame, List.drop_left]
      rfl
    rw [hdeclared, hdrop, List.take_left]
  have hopcode := opcode_bytes frame []
  have hflags := flags_bytes frame []
  have hid := requestId_bytes frame []
  rw [List.append_nil] at hopcode hflags hid
  simp only [ofBytes, hpayload, hopcode, hflags, hid]
  simp

end Frame

/-- The bytes begin as a frame of this version does. -/
structure Marked (data : Bytes) : Prop where
  magic : field 2 0 data = frameMagic.toNat
  version : field 2 2 data = protocolVersion.toNat

namespace Frame

variable {frame : Frame} {data : Bytes}

theorem marked_bytes (frame : Frame) (rest : Bytes) : Marked (frame.bytes ++ rest) :=
  ⟨magic_bytes frame rest, version_bytes frame rest⟩

theorem length_payload_ofBytes (h : framing.Framed data) :
    (ofBytes data).payload.length = framing.declared data := by
  have hsize := h.size
  simp only [Framing.total, framing] at hsize
  simp only [ofBytes, List.length_take, List.length_drop, framing]
  omega

theorem fits_ofBytes (h : framing.Framed data) : (ofBytes data).Fits := by
  rw [Fits, length_payload_ofBytes h]
  exact Framing.declared_lt data

private theorem header_ofBytes (h : framing.Framed data) (hmarked : Marked data) :
    (ofBytes data).header = data.take 20 := by
  have hle : 24 ≤ data.length := h.header_le
  have hopcode : (ofBytes data).opcode.toNat = field 2 4 data :=
    UInt16.toNat_ofNat_of_lt' (by simpa using field_lt 2 4 data)
  have hflags : (ofBytes data).flags.toNat = field 2 6 data :=
    UInt16.toNat_ofNat_of_lt' (by simpa using field_lt 2 6 data)
  have hid : (ofBytes data).requestId.toNat = field 8 8 data :=
    UInt64.toNat_ofNat_of_lt' (by simpa using field_lt 8 8 data)
  have hmagic : le 2 (field 2 0 data) = data.take 2 := @le_field 2 0 data (by omega)
  have hlength : framing.declared data = field 4 16 data := rfl
  rw [header, length_payload_ofBytes h, hlength, hopcode, hflags, hid, ← hmarked.magic,
    ← hmarked.version, hmagic]
  rw [take_append_field (by omega), take_append_field (by omega), take_append_field (by omega),
    take_append_field (by omega), take_append_field (by omega)]

/-- **Every marked frame is the encoding of what is read from it.** -/
theorem bytes_ofBytes (h : framing.Framed data) (hmarked : Marked data) :
    (ofBytes data).bytes = data := by
  have hle : 24 ≤ data.length := h.header_le
  have hsize : data.length = 20 + framing.declared data + 4 := h.size
  have hbody : (ofBytes data).header ++ (ofBytes data).payload = data.take (data.length - 4) := by
    rw [header_ofBytes h hmarked, show data.length - 4 = 20 + framing.declared data by omega,
      List.take_add]
    rfl
  have hsum := h.sum
  rw [bytes, hbody, Framing.sealed, ← hsum, take_append_field (by omega),
    List.take_of_length_le (by omega)]

end Frame

/-! ## The two functions -/

variable {frame : Frame} {limits : FrameLimits} {data : Bytes}

theorem encodeFrame_ok : encodeFrame frame limits = .ok data ↔
    frame.payload.length ≤ limits.maxFrameBytes.toNat ∧ frame.size < 2 ^ 64 ∧
      data = frame.bytes := by
  simp only [encodeFrame, require_bind_eq_ok]
  constructor
  · rintro ⟨hbound, hsize, hdata⟩
    cases hdata
    exact ⟨hbound, hsize, rfl⟩
  · rintro ⟨hbound, hsize, rfl⟩
    exact ⟨hbound, hsize, rfl⟩

/-- **What is decoded is exactly the encoding of a frame that fits**, within the limit. -/
theorem decodeFrame_ok : decodeFrame data limits = .ok frame ↔
    data = frame.bytes ∧ frame.Fits ∧ frame.payload.length ≤ limits.maxFrameBytes.toNat := by
  simp only [decodeFrame, require_bind_eq_ok]
  constructor
  · rintro ⟨-, hmagic, hversion, hbound, -, hsize, hsum, hframe⟩
    cases hframe
    have hframed : framing.Framed data := ⟨hsize, by rw [hsize]; exact hsum⟩
    refine ⟨(Frame.bytes_ofBytes hframed ⟨hmagic, hversion⟩).symm, Frame.fits_ofBytes hframed, ?_⟩
    rwa [Frame.length_payload_ofBytes hframed]
  · rintro ⟨rfl, hfits, hbound⟩
    have hmarked := Frame.marked_bytes frame []
    have htotal : framing.total (frame.bytes ++ []) = frame.size := hfits.total
    have hdeclared : framing.declared (frame.bytes ++ []) = _ := hfits.declared
    rw [List.append_nil] at hmarked htotal hdeclared
    have hsum := hfits.framed.sum
    rw [Frame.length_bytes] at hsum
    have hread : Frame.ofBytes frame.bytes = frame := hfits.ofBytes_bytes
    refine ⟨?_, hmarked.magic, hmarked.version, ?_, total_lt _, ?_, ?_, ?_⟩
    · rw [Frame.length_bytes]
      exact frame.header_le_size
    · rwa [hdeclared]
    · rw [htotal, Frame.length_bytes]
    · rw [htotal]
      exact hsum
    · rw [hread]
      rfl

/-- A frame that is encoded is not decoded with one byte of it changed. -/
theorem decodeFrame_changed {p q : Bytes} {b b' : UInt8} (hne : b ≠ b')
    (h : frame.bytes = p ++ b :: q) : ∃ e, decodeFrame (p ++ b' :: q) limits = .error e := by
  cases hdecode : decodeFrame (p ++ b' :: q) limits with
  | error e => exact ⟨e, rfl⟩
  | ok other =>
    obtain ⟨hother, hfits, -⟩ := decodeFrame_ok.mp hdecode
    have hsize : frame.size = other.size := by
      rw [← Frame.length_bytes, ← Frame.length_bytes, h, ← hother]
      simp
    have hfits' : frame.Fits := by
      simp only [Frame.size, Frame.Fits] at hsize hfits ⊢
      omega
    have hframed := hfits'.framed
    have hframed' := hfits.framed
    rw [h] at hframed
    rw [← hother] at hframed'
    exact absurd hframed' (hframed.not_framed hne)

end Service

end OffloadFabric
