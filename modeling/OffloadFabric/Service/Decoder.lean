import OffloadFabric.Service.Frame

/-!
# The streaming decoder

`FrameDecoder` (`src/service.cpp:231-273`), which takes frames off a stream that arrives in
chunks. What it answers depends on the bytes not yet consumed alone, and these are always a part
of the stream that begins where a frame does.
-/

namespace OffloadFabric

open Lib

namespace Service

/-- `FrameDecoder`, `include/nof/service.hpp:81-98`. -/
structure FrameDecoder where
  limits : FrameLimits
  buffer : Bytes := []
  consumed : Nat := 0
  within : consumed ≤ buffer.length := by simp

namespace FrameDecoder

/-- The bytes fed and not consumed, `src/service.cpp:236,240`. -/
def pending (d : FrameDecoder) : Bytes := d.buffer.drop d.consumed

theorem length_pending (d : FrameDecoder) :
    d.pending.length = d.buffer.length - d.consumed := List.length_drop

/-- `FrameDecoder::feed`, `src/service.cpp:231-233`. -/
def feed (d : FrameDecoder) (data : Bytes) : FrameDecoder where
  limits := d.limits
  buffer := d.buffer ++ data
  consumed := d.consumed
  within := by
    have := d.within
    simp only [List.length_append]
    omega

/-- The decoder behind the frame in front of it, `src/service.cpp:259-263`: a buffer that is read
to its end is cleared. -/
def consume (d : FrameDecoder) (total : Nat) (h : total ≤ d.pending.length) : FrameDecoder :=
  if d.consumed + total = d.buffer.length then { limits := d.limits }
  else {
    limits := d.limits
    buffer := d.buffer
    consumed := d.consumed + total
    within := by
      have := d.within
      rw [length_pending] at h
      omega }

/-- `FrameDecoder::next`, `src/service.cpp:235-266`: nothing while the frame in front is not
complete, else the frame and the decoder behind it. -/
def next (d : FrameDecoder) : Result (Option (Frame × FrameDecoder)) :=
  if d.pending.length < frameHeaderBytes + frameTrailerBytes then .ok none
  else do
    require (field 2 0 d.pending = frameMagic.toNat)
      ⟨.frameInvalid, "frame magic does not match"⟩
    require (field 2 2 d.pending = protocolVersion.toNat)
      ⟨.protocolVersionMismatch, "frame protocol version is not supported"⟩
    require (framing.declared d.pending ≤ d.limits.maxFrameBytes.toNat)
      ⟨.payloadTooLarge, "frame payload length exceeds the configured bound"⟩
    if h : d.pending.length < framing.total d.pending then return none
    else do
      let frame ← decodeFrame (d.pending.take (framing.total d.pending)) d.limits
      return some (frame, d.consume (framing.total d.pending) (Nat.le_of_not_lt h))

/-- `FrameDecoder::finish`, `src/service.cpp:268-273`. -/
def finish (d : FrameDecoder) : Result Unit :=
  require (d.buffer.length = d.consumed) ⟨.truncatedInput, "connection ended inside a frame"⟩

/-- Taking frames until none is complete, with a bound on the turns. -/
def drain : Nat → FrameDecoder → Result (List Frame × FrameDecoder)
  | 0, d => return ([], d)
  | turns + 1, d => do
    match ← d.next with
    | none => return ([], d)
    | some (frame, d') => do
      let (frames, d'') ← drain turns d'
      return (frame :: frames, d'')

/-- Feeding a chunk and taking its frames; every frame takes at least one byte. -/
def take (d : FrameDecoder) (chunk : Bytes) : Result (List Frame × FrameDecoder) :=
  drain ((d.feed chunk).pending.length + 1) (d.feed chunk)

/-- Feeding a stream in chunks and taking the frames behind each of them. -/
def receive : List Bytes → FrameDecoder → Result (List Frame × FrameDecoder)
  | [], d => return ([], d)
  | chunk :: chunks, d => do
    let (front, d') ← d.take chunk
    let (frames, d'') ← receive chunks d'
    return (front ++ frames, d'')

/-! ## The unconsumed bytes -/

variable {d d' : FrameDecoder} {frame : Frame} {frames : List Frame} {rest : Bytes}

@[simp] theorem limits_feed (d : FrameDecoder) (data : Bytes) : (d.feed data).limits = d.limits :=
  rfl

@[simp] theorem pending_feed (d : FrameDecoder) (data : Bytes) :
    (d.feed data).pending = d.pending ++ data :=
  List.drop_append_of_le_length d.within

@[simp] theorem limits_consume (total : Nat) (h : total ≤ d.pending.length) :
    (d.consume total h).limits = d.limits := by
  unfold consume
  split <;> rfl

@[simp] theorem pending_consume (total : Nat) (h : total ≤ d.pending.length) :
    (d.consume total h).pending = d.pending.drop total := by
  unfold consume
  split
  · next hend =>
    simp only [pending, List.drop_drop, hend, List.drop_length]
    rfl
  · simp only [pending, List.drop_drop]

/-- A stream may end exactly where nothing is pending. -/
theorem finish_ok : d.finish = .ok () ↔ d.pending = [] := by
  have hwithin := d.within
  rw [finish, require_eq_ok, ← List.length_eq_zero_iff, length_pending]
  omega

theorem finish_error (h : d.pending ≠ []) :
    d.finish = .error ⟨.truncatedInput, "connection ended inside a frame"⟩ := by
  have hwithin := d.within
  rw [finish, require_eq_error]
  refine ⟨fun hend ↦ h ?_, rfl⟩
  rw [← List.length_eq_zero_iff, length_pending]
  omega

/-! ## One frame -/

/-- The frame can be sent under the limits and be read back. -/
structure Sendable (limits : FrameLimits) (frame : Frame) : Prop where
  fits : frame.Fits
  bounded : frame.payload.length ≤ limits.maxFrameBytes.toNat

/-- A complete frame in front is taken. -/
theorem next_complete (h : Sendable d.limits frame) (hpending : d.pending = frame.bytes ++ rest) :
    ∃ d', d.next = .ok (some (frame, d')) ∧ d'.limits = d.limits ∧ d'.pending = rest := by
  have hmarked := frame.marked_bytes rest
  have hdeclared : framing.declared (frame.bytes ++ rest) = _ := h.fits.declared
  have htotal : framing.total (frame.bytes ++ rest) = frame.size := h.fits.total
  have hlen : d.pending.length = frame.size + rest.length := by
    rw [hpending, List.length_append, Frame.length_bytes]
  have hle := frame.header_le_size
  have hdecode : decodeFrame (d.pending.take (framing.total d.pending)) d.limits = .ok frame := by
    rw [hpending, htotal, ← Frame.length_bytes, List.take_left]
    exact decodeFrame_ok.mpr ⟨rfl, h.fits, h.bounded⟩
  have hcomplete : ¬ d.pending.length < framing.total d.pending := by
    rw [hlen, hpending, htotal]
    omega
  refine ⟨d.consume (framing.total d.pending) (Nat.le_of_not_lt hcomplete), ?_, ?_, ?_⟩
  · rw [next, if_neg (by omega)]
    simp only [require_bind_eq_ok, dif_neg hcomplete, hdecode]
    rw [← hpending] at hmarked hdeclared
    refine ⟨hmarked.magic, hmarked.version, ?_, rfl⟩
    rw [hdeclared]
    exact h.bounded
  · exact limits_consume _ _
  · rw [pending_consume, hpending, htotal, ← Frame.length_bytes, List.drop_left]

/-- A part of a frame in front is left for the next chunk. -/
theorem next_part (h : Sendable d.limits frame) {n : Nat} (hn : n < frame.size)
    (hpending : d.pending = frame.bytes.take n) : d.next = .ok none := by
  have hlen : d.pending.length = n := by
    rw [hpending, List.length_take, Frame.length_bytes]
    omega
  by_cases hshort : n < frameHeaderBytes + frameTrailerBytes
  · rw [next, if_pos (by omega)]
  · have hmarked := frame.marked_bytes []
    have hdeclared : framing.declared (frame.bytes ++ []) = _ := h.fits.declared
    have htotal : framing.total (frame.bytes ++ []) = frame.size := h.fits.total
    rw [List.append_nil] at hmarked hdeclared htotal
    have hheader : framing.headerSize ≤ n := by
      simp only [framing, frameHeaderBytes, frameTrailerBytes] at hshort ⊢
      omega
    have hdeclared' : framing.declared d.pending = frame.payload.length := by
      rw [hpending, Framing.declared_take _ hheader, hdeclared]
    have htotal' : framing.total d.pending = frame.size := by
      rw [hpending, Framing.total_take _ hheader, htotal]
    have hmagic : field 2 0 d.pending = frameMagic.toNat := by
      rw [hpending, field_take _ (by simp only [frameHeaderBytes] at hshort; omega)]
      exact hmarked.magic
    have hversion : field 2 2 d.pending = protocolVersion.toNat := by
      rw [hpending, field_take _ (by simp only [frameHeaderBytes] at hshort; omega)]
      exact hmarked.version
    rw [next, if_neg (by omega)]
    simp only [require_bind_eq_ok,
      dif_pos (show d.pending.length < framing.total d.pending by omega)]
    refine ⟨hmagic, hversion, ?_, rfl⟩
    rw [hdeclared']
    exact h.bounded

/-- A decoder with nothing pending has no frame. -/
theorem next_nil (h : d.pending = []) : d.next = .ok none := by
  rw [next, if_pos]
  rw [h]
  decide

/-- What is taken stood in front, and its length fits the length field. -/
theorem next_some (h : d.next = .ok (some (frame, d'))) :
    Sendable d.limits frame ∧ d.pending = frame.bytes ++ d'.pending ∧ d'.limits = d.limits := by
  rw [next] at h
  split at h
  · cases h
  · simp only [require_bind_eq_ok] at h
    obtain ⟨-, -, -, h⟩ := h
    split at h
    · cases h
    · obtain ⟨other, hdecode, hother⟩ := bind_eq_ok.mp h
      cases hother
      obtain ⟨hdata, hfits, hbounded⟩ := decodeFrame_ok.mp hdecode
      refine ⟨⟨hfits, hbounded⟩, ?_, limits_consume _ _⟩
      rw [pending_consume, ← hdata, List.take_append_drop]

/-! ## Draining -/

/-- The bytes of frames one behind the other. -/
def stream (frames : List Frame) : Bytes := (frames.map Frame.bytes).flatten

@[simp] theorem stream_nil : stream [] = [] := rfl

@[simp] theorem stream_cons (frame : Frame) (frames : List Frame) :
    stream (frame :: frames) = frame.bytes ++ stream frames := rfl

theorem stream_append (frames frames' : List Frame) :
    stream (frames ++ frames') = stream frames ++ stream frames' := by
  simp [stream]

/-- What is pending ends inside the first of the frames to come. -/
def Inside (d : FrameDecoder) (frames : List Frame) : Prop :=
  d.pending <+: stream frames ∧ ∀ frame ∈ frames.head?, d.pending.length < frame.size

/-- Frames taken from a decoder are sendable and stood in front of what is left. -/
theorem drain_ok {turns : Nat} (h : drain turns d = .ok (frames, d')) :
    (∀ frame ∈ frames, Sendable d.limits frame) ∧ d.pending = stream frames ++ d'.pending ∧
      d'.limits = d.limits := by
  induction turns generalizing d frames with
  | zero =>
    cases h
    simp
  | succ turns ih =>
    rw [drain] at h
    obtain ⟨found, hnext, hrest⟩ := bind_eq_ok.mp h
    match found with
    | none =>
      cases hrest
      simp
    | some (frame, behind) =>
      obtain ⟨⟨later, last⟩, hdrain, hlater⟩ := bind_eq_ok.mp hrest
      cases hlater
      obtain ⟨hfront, hpending, hlimits⟩ := next_some hnext
      obtain ⟨hsendable, hbehind, hlimits'⟩ := ih hdrain
      rw [hlimits] at hsendable hlimits'
      refine ⟨List.forall_mem_cons.mpr ⟨hfront, hsendable⟩, ?_, hlimits'⟩
      rw [hpending, hbehind, stream_cons, List.append_assoc]

/-- The turns suffice: no complete frame is left. -/
theorem drain_done {turns : Nat} (hturns : d.pending.length < turns)
    (h : drain turns d = .ok (frames, d')) : d'.next = .ok none := by
  induction turns generalizing d frames with
  | zero => omega
  | succ turns ih =>
    rw [drain] at h
    obtain ⟨found, hnext, hrest⟩ := bind_eq_ok.mp h
    match found with
    | none =>
      cases hrest
      exact hnext
    | some (frame, behind) =>
      obtain ⟨⟨later, last⟩, hdrain, hlater⟩ := bind_eq_ok.mp hrest
      cases hlater
      obtain ⟨-, hpending, -⟩ := next_some hnext
      have hlen := congrArg List.length hpending
      rw [List.length_append, Frame.length_bytes] at hlen
      have := frame.header_le_size
      simp only [frameHeaderBytes] at this
      exact ih (by omega) hdrain

theorem take_done {chunk : Bytes} (h : d.take chunk = .ok (frames, d')) : d'.next = .ok none :=
  drain_done (Nat.lt_succ_self _) h

/-- **Draining takes the complete frames** off a part of a stream of sendable frames, and what is
left ends inside the next one. -/
theorem drain_stream {turns : Nat} (hturns : d.pending.length < turns)
    (hsendable : ∀ frame ∈ frames, Sendable d.limits frame) (hpart : d.pending <+: stream frames) :
    ∃ front later d', frames = front ++ later ∧ drain turns d = .ok (front, d') ∧
      d'.Inside later := by
  induction turns generalizing d frames with
  | zero => omega
  | succ turns ih =>
    cases frames with
    | nil =>
      have hnil : d.pending = [] := List.prefix_nil.mp hpart
      refine ⟨[], [], d, rfl, ?_, hpart, by simp⟩
      rw [drain, next_nil hnil]
      rfl
    | cons frame frames =>
      obtain ⟨hframe, hframes⟩ := List.forall_mem_cons.mp hsendable
      obtain ⟨tail, htail⟩ := hpart
      rw [stream_cons] at htail
      by_cases hshort : d.pending.length < frame.size
      · have hpending : d.pending = frame.bytes.take d.pending.length := by
          have h := congrArg (List.take d.pending.length) htail
          rwa [List.take_left, List.take_append_of_le_length
            (by rw [Frame.length_bytes]; omega)] at h
        refine ⟨[], frame :: frames, d, rfl, ?_, ⟨tail, htail⟩, by simpa using hshort⟩
        rw [drain, next_part hframe hshort hpending]
        rfl
      · obtain ⟨rest, hrest⟩ : ∃ rest, d.pending = frame.bytes ++ rest := by
          have h : frame.bytes <+: d.pending := by
            refine List.prefix_of_prefix_length_le ⟨stream frames, rfl⟩ ⟨tail, htail⟩ ?_
            rw [Frame.length_bytes]
            omega
          obtain ⟨rest, hrest⟩ := h
          exact ⟨rest, hrest.symm⟩
        obtain ⟨behind, hnext, hlimits, hpending⟩ := next_complete hframe hrest
        have hlen := congrArg List.length hrest
        rw [List.length_append, Frame.length_bytes] at hlen
        have hsize := frame.header_le_size
        simp only [frameHeaderBytes] at hsize
        rw [hrest, List.append_assoc] at htail
        have hbehind : behind.pending <+: stream frames := by
          rw [hpending]
          exact ⟨tail, List.append_cancel_left htail⟩
        obtain ⟨front, later, last, hsplit, hdrain, hinside⟩ :=
          ih (by rw [hpending]; omega) (by rw [hlimits]; exact hframes) hbehind
        refine ⟨frame :: front, later, last, by rw [hsplit]; rfl, ?_, hinside⟩
        rw [drain, hnext]
        change (drain turns behind >>= _) = _
        rw [hdrain]
        rfl

/-- **However a part of a stream arrives in chunks**, the complete frames of it are received, and
what is left ends inside the next one. -/
theorem receive_stream {chunks : List Bytes} (hsendable : ∀ frame ∈ frames, Sendable d.limits frame)
    (hinside : d.Inside frames) (hpart : d.pending ++ chunks.flatten <+: stream frames) :
    ∃ front later d', frames = front ++ later ∧ receive chunks d = .ok (front, d') ∧
      d'.Inside later ∧ d.pending ++ chunks.flatten = stream front ++ d'.pending := by
  induction chunks generalizing d frames with
  | nil => exact ⟨[], frames, d, rfl, rfl, hinside, by simp⟩
  | cons chunk chunks ih =>
    rw [List.flatten_cons, ← List.append_assoc, ← pending_feed] at hpart
    obtain ⟨front, later, d', hsplit, hdrain, hinside'⟩ := drain_stream (Nat.lt_succ_self _)
      (limits_feed d chunk ▸ hsendable) ((List.prefix_append _ _).trans hpart)
    obtain ⟨-, hpending, hlimits⟩ := drain_ok hdrain
    rw [limits_feed] at hlimits
    rw [hpending, hsplit, stream_append, List.append_assoc, List.prefix_append_right_inj] at hpart
    have hlater : ∀ frame ∈ later, Sendable d'.limits frame := by
      intro frame hframe
      rw [hlimits]
      exact hsendable frame (by rw [hsplit]; exact List.mem_append_right _ hframe)
    obtain ⟨front', later', d'', hsplit', hreceive, hinside'', hrest⟩ := ih hlater hinside' hpart
    refine ⟨front ++ front', later', d'', ?_, ?_, hinside'', ?_⟩
    · rw [hsplit, hsplit', List.append_assoc]
    · rw [receive, take, hdrain]
      change (receive chunks d' >>= _) = _
      rw [hreceive]
      rfl
    · rw [List.flatten_cons, ← List.append_assoc, ← pending_feed, hpending, List.append_assoc,
        hrest, stream_append, List.append_assoc]

/-- Receiving keeps the limits. -/
theorem limits_receive {chunks : List Bytes} (h : receive chunks d = .ok (frames, d')) :
    d'.limits = d.limits := by
  induction chunks generalizing d frames with
  | nil =>
    cases h
    rfl
  | cons chunk chunks ih =>
    rw [receive] at h
    obtain ⟨⟨front, behind⟩, htake, hrest⟩ := bind_eq_ok.mp h
    obtain ⟨⟨later, last⟩, hreceive, hlater⟩ := bind_eq_ok.mp hrest
    cases hlater
    obtain ⟨-, -, hlimits⟩ := drain_ok htake
    rw [ih hreceive, hlimits, limits_feed]

/-- **However a whole stream arrives in chunks**, its frames are received and nothing is left. -/
theorem receive_whole {chunks : List Bytes} (hsendable : ∀ frame ∈ frames, Sendable d.limits frame)
    (hpending : d.pending = []) (hwhole : chunks.flatten = stream frames) :
    ∃ d', receive chunks d = .ok (frames, d') ∧ d'.limits = d.limits ∧ d'.pending = [] := by
  have hinside : d.Inside frames := by
    refine ⟨hpending ▸ List.nil_prefix, fun frame _ ↦ ?_⟩
    have hle := frame.header_le_size
    simp only [frameHeaderBytes] at hle
    rw [hpending, List.length_nil]
    omega
  obtain ⟨front, later, d', hsplit, hreceive, hlater, hbytes⟩ :=
    receive_stream hsendable hinside (by rw [hpending, List.nil_append, hwhole])
  rw [hpending, List.nil_append, hwhole, hsplit, stream_append] at hbytes
  have hleft : stream later = d'.pending := List.append_cancel_left hbytes
  have hnil : later = [] := by
    cases later with
    | nil => rfl
    | cons frame later =>
      have hshort := hlater.2 frame rfl
      rw [← hleft, stream_cons, List.length_append, Frame.length_bytes] at hshort
      omega
  rw [hnil, List.append_nil] at hsplit
  rw [hnil, stream_nil] at hleft
  exact ⟨d', hsplit ▸ hreceive, limits_receive hreceive, hleft.symm⟩

/-- Frames received are sendable. -/
theorem receive_ok {chunks : List Bytes} (h : receive chunks d = .ok (frames, d')) :
    ∀ frame ∈ frames, Sendable d.limits frame := by
  induction chunks generalizing d frames with
  | nil =>
    cases h
    simp
  | cons chunk chunks ih =>
    rw [receive] at h
    obtain ⟨⟨front, behind⟩, htake, hrest⟩ := bind_eq_ok.mp h
    obtain ⟨⟨later, last⟩, hreceive, hlater⟩ := bind_eq_ok.mp hrest
    cases hlater
    obtain ⟨hfront, -, hlimits⟩ := drain_ok htake
    have hbehind := ih hreceive
    rw [hlimits, limits_feed] at hbehind
    intro frame hframe
    rcases List.mem_append.mp hframe with hmem | hmem
    · exact hfront frame hmem
    · exact hbehind frame hmem

end FrameDecoder

end Service

end OffloadFabric
