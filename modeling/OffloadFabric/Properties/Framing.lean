import OffloadFabric.Service.Decoder

/-!
# Framing

What a streaming decoder makes of encoded frames, however they are cut into chunks, and what
decoding makes of a frame with one byte changed (`src/service.cpp:167-273`).
-/

namespace OffloadFabric

namespace Service

variable {limits : FrameLimits} {frame : Frame} {frames : List Frame} {encodings : List Bytes}

/-- The encodings of frames, `src/service.cpp:167-190`, each of which must succeed. -/
def encodeFrames (frames : List Frame) (limits : FrameLimits) : Result (List Bytes) :=
  frames.mapM (encodeFrame · limits)

/-- The place of a stream is the end of one of its frames, or its beginning. -/
def FrameBoundary (frames : List Frame) (n : Nat) : Prop :=
  ∃ front, front <+: frames ∧ n = (FrameDecoder.stream front).length

/-- The stream of the frames is received as these frames however it is cut into chunks, a stream
that ends inside one of them is refused at its end, and what is decoded is encoded back. -/
structure ChunkInvariant (limits : FrameLimits) (frames : List Frame) (data : Bytes) : Prop where
  received : ∀ chunks : List Bytes, chunks.flatten = data →
    ∃ d, FrameDecoder.receive chunks { limits } = .ok (frames, d) ∧ d.finish = .ok ()
  inside : ∀ n, n ≤ data.length → ¬ FrameBoundary frames n → ∀ chunks : List Bytes,
    chunks.flatten = data.take n →
      ∃ front d, FrameDecoder.receive chunks { limits } = .ok (front, d) ∧ front <+: frames ∧
        d.finish = .error ⟨.truncatedInput, "connection ended inside a frame"⟩
  reencoded : ∀ data frame, decodeFrame data limits = .ok frame →
    encodeFrame frame limits = .ok data

theorem encodeFrames_ok (h : encodeFrames frames limits = .ok encodings) :
    encodings.flatten = FrameDecoder.stream frames ∧
      ∀ frame ∈ frames, frame.payload.length ≤ limits.maxFrameBytes.toNat := by
  induction frames generalizing encodings with
  | nil =>
    cases h
    simp
  | cons frame frames ih =>
    rw [encodeFrames, List.mapM_cons] at h
    obtain ⟨encoding, hframe, hrest⟩ := bind_eq_ok.mp h
    obtain ⟨later, hframes, hlater⟩ := bind_eq_ok.mp hrest
    cases hlater
    obtain ⟨hbound, -, rfl⟩ := encodeFrame_ok.mp hframe
    obtain ⟨hflatten, hbounds⟩ := ih hframes
    rw [List.flatten_cons, hflatten]
    exact ⟨rfl, List.forall_mem_cons.mpr ⟨hbound, hbounds⟩⟩

/-- What is decoded is encoded back to its bytes, whatever the limits. -/
theorem encodeFrame_of_decodeFrame {data : Bytes} (h : decodeFrame data limits = .ok frame) :
    encodeFrame frame limits = .ok data := by
  obtain ⟨rfl, hfits, hbound⟩ := decodeFrame_ok.mp h
  refine encodeFrame_ok.mpr ⟨hbound, ?_, rfl⟩
  simp only [Frame.Fits] at hfits
  simp only [Frame.size, frameHeaderBytes, frameTrailerBytes]
  omega

/-- A part of the stream of sendable frames, received in chunks by a new decoder. -/
private theorem receive_part {chunks : List Bytes}
    (hsendable : ∀ frame ∈ frames, FrameDecoder.Sendable limits frame)
    (hpart : chunks.flatten <+: FrameDecoder.stream frames) :
    ∃ front later d, frames = front ++ later ∧
      FrameDecoder.receive chunks { limits } = .ok (front, d) ∧ d.Inside later ∧
      chunks.flatten = FrameDecoder.stream front ++ d.pending := by
  have hinside : FrameDecoder.Inside { limits } frames := by
    refine ⟨List.nil_prefix, fun frame _ ↦ ?_⟩
    have hsize := frame.header_le_size
    change 0 < frame.size
    simp only [frameHeaderBytes] at hsize
    omega
  exact FrameDecoder.receive_stream hsendable hinside hpart

private theorem chunkInvariant_of_fits (h : encodeFrames frames limits = .ok encodings)
    (hfits : ∀ frame ∈ frames, frame.Fits) : ChunkInvariant limits frames encodings.flatten := by
  obtain ⟨hflatten, hbounds⟩ := encodeFrames_ok h
  have hsendable : ∀ frame ∈ frames, FrameDecoder.Sendable limits frame :=
    fun frame hframe ↦ ⟨hfits frame hframe, hbounds frame hframe⟩
  rw [hflatten]
  refine ⟨fun chunks hchunks ↦ ?_, fun n hn hboundary chunks hchunks ↦ ?_,
    fun _ _ ↦ encodeFrame_of_decodeFrame⟩
  · obtain ⟨front, later, d, hsplit, hreceive, hinside, hrest⟩ :=
      receive_part hsendable (by rw [hchunks])
    rw [hchunks, hsplit, FrameDecoder.stream_append] at hrest
    have hpending := List.append_cancel_left hrest
    have hlater : later = [] := by
      cases later with
      | nil => rfl
      | cons frame later =>
        have hshort := hinside.2 frame rfl
        rw [← hpending, FrameDecoder.stream_cons, List.length_append, Frame.length_bytes] at hshort
        omega
    subst hlater
    rw [List.append_nil] at hsplit
    subst hsplit
    exact ⟨d, hreceive, FrameDecoder.finish_ok.mpr hpending.symm⟩
  · obtain ⟨front, later, d, hsplit, hreceive, -, hrest⟩ :=
      receive_part hsendable (by rw [hchunks]; exact List.take_prefix _ _)
    have hfront : front <+: frames := ⟨later, hsplit.symm⟩
    refine ⟨front, d, hreceive, hfront, FrameDecoder.finish_error fun hnil ↦ ?_⟩
    -- nothing pending puts the cut behind the frames received
    have hlen := congrArg List.length hrest
    rw [hchunks, hnil, List.append_nil, List.length_take, Nat.min_eq_left hn] at hlen
    exact hboundary ⟨front, hfront, hlen⟩

/-- **Framing is chunk-invariant exactly for payloads that the length field holds.** -/
theorem chunkInvariant_iff (h : encodeFrames frames limits = .ok encodings) :
    ChunkInvariant limits frames encodings.flatten ↔
      ∀ frame ∈ frames, frame.payload.length < 2 ^ 32 := by
  constructor
  · intro hinvariant frame hframe
    obtain ⟨d, hreceive, -⟩ := hinvariant.received [encodings.flatten] (by simp)
    exact (FrameDecoder.receive_ok hreceive frame hframe).fits
  · exact chunkInvariant_of_fits h

/-- A payload of 2^32 bytes within a larger limit is encoded and not received. -/
theorem long_payload_not_received :
    ¬ ∀ (limits : FrameLimits) (frames : List Frame) (encodings : List Bytes),
      encodeFrames frames limits = .ok encodings →
        ChunkInvariant limits frames encodings.flatten := by
  intro h
  have hencode : encodeFrames [⟨2, 0, 1, List.replicate (2 ^ 32) 0⟩] ⟨2 ^ 33⟩ =
      .ok [Frame.bytes ⟨2, 0, 1, List.replicate (2 ^ 32) 0⟩] := by
    have hframe : encodeFrame ⟨2, 0, 1, List.replicate (2 ^ 32) 0⟩ ⟨2 ^ 33⟩ =
        .ok (Frame.bytes ⟨2, 0, 1, List.replicate (2 ^ 32) 0⟩) := by
      refine encodeFrame_ok.mpr ⟨?_, ?_, rfl⟩
      · rw [List.length_replicate]
        decide
      · rw [Frame.size, List.length_replicate]
        decide
    rw [encodeFrames, List.mapM_cons, hframe]
    rfl
  obtain ⟨d, hreceive, -⟩ := (h _ _ _ hencode).received [_] (by rw [List.flatten_singleton])
  have hfits := (FrameDecoder.receive_ok hreceive _ (List.mem_singleton_self _)).fits
  rw [Frame.Fits, List.length_replicate] at hfits
  exact absurd hfits (by decide)

/-- Two small frames are received however their stream is cut. -/
theorem two_frames_received :
    ChunkInvariant {} [⟨2, 0, 1, [1, 2, 3]⟩, ⟨3, 0, 2, []⟩]
      [Frame.bytes ⟨2, 0, 1, [1, 2, 3]⟩, Frame.bytes ⟨3, 0, 2, []⟩].flatten :=
  (chunkInvariant_iff rfl).mpr (by decide)

/-! ## One changed byte -/

/-- **A frame with one byte changed is refused**, whichever byte it is. -/
theorem decodeFrame_error_of_changed {p q : Bytes} {b b' : UInt8}
    (h : encodeFrame frame limits = .ok (p ++ b :: q)) (hne : b' ≠ b) :
    ∃ e, decodeFrame (p ++ b' :: q) limits = .error e := by
  obtain ⟨-, -, hbytes⟩ := encodeFrame_ok.mp h
  exact decodeFrame_changed hne.symm hbytes.symm

/-- A ping whose version is changed. -/
theorem ping_changed_version_refused :
    ∃ e, decodeFrame ([0x46, 0x4E] ++ 2 :: (Frame.bytes ⟨2, 0, 7, []⟩).drop 3) {} = .error e := by
  have hsplit : encodeFrame ⟨2, 0, 7, []⟩ {} =
      .ok ([0x46, 0x4E] ++ 1 :: (Frame.bytes ⟨2, 0, 7, []⟩).drop 3) := by
    decide +kernel
  exact decodeFrame_error_of_changed hsplit (by decide)

end Service

end OffloadFabric
