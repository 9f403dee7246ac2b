import OffloadFabric.Service.Decoder

/-!
# What the decoder keeps

`FrameDecoder::feed` and `next` (`src/service.cpp:231-266`) over a connection. The buffer is
emptied where a chunk ends with a frame and nowhere else, so what it holds are the bytes since
the last such chunk and not the bytes of one frame.
-/

namespace OffloadFabric.Service

namespace FrameDecoder

variable {limits : FrameLimits} {d d' : FrameDecoder} {frame : Frame} {fed : List Bytes}
  {xs ys : Bytes}

/-! ## Whole frames -/

/-- The bytes are frames one behind the other, each complete and within the limits. -/
def Aligned (limits : FrameLimits) (data : Bytes) : Prop :=
  ∃ frames, (∀ frame ∈ frames, Sendable limits frame) ∧ data = stream frames

theorem aligned_nil : Aligned limits [] := ⟨[], by simp, rfl⟩

theorem Aligned.append (hx : Aligned limits xs) (hy : Aligned limits ys) :
    Aligned limits (xs ++ ys) := by
  obtain ⟨fs, hfs, rfl⟩ := hx
  obtain ⟨gs, hgs, rfl⟩ := hy
  refine ⟨fs ++ gs, ?_, (stream_append fs gs).symm⟩
  intro frame hframe
  rcases List.mem_append.mp hframe with h | h
  · exact hfs frame h
  · exact hgs frame h

theorem aligned_bytes (h : Sendable limits frame) : Aligned limits frame.bytes :=
  ⟨[frame], by simpa using h, by simp⟩

/-- Two ways to begin with a frame are one. -/
theorem append_bytes_inj {frame frame' : Frame} (h : Sendable limits frame)
    (h' : Sendable limits frame') (heq : frame.bytes ++ xs = frame'.bytes ++ ys) : xs = ys := by
  have hpending : ({ limits, buffer := frame.bytes ++ xs } : FrameDecoder).pending =
      frame.bytes ++ xs := rfl
  obtain ⟨d, hnext, -, hrest⟩ := next_complete h hpending
  obtain ⟨d', hnext', -, hrest'⟩ := next_complete h' (hpending.trans heq)
  rw [hnext] at hnext'
  cases hnext'
  exact hrest.symm.trans hrest'

/-- Whole frames in front do not matter. -/
theorem aligned_append_iff (hx : Aligned limits xs) :
    Aligned limits (xs ++ ys) ↔ Aligned limits ys := by
  refine ⟨?_, hx.append⟩
  obtain ⟨fs, hfs, rfl⟩ := hx
  induction fs with
  | nil => exact id
  | cons f fs ih =>
    obtain ⟨hf, hfs⟩ := List.forall_mem_cons.mp hfs
    rintro ⟨gs, hgs, heq⟩
    rw [stream_cons, List.append_assoc] at heq
    match gs, hgs, heq with
    | [], _, heq =>
      have hlen := congrArg List.length heq
      have := f.header_le_size
      simp [frameHeaderBytes] at hlen this
      omega
    | g :: gs, hgs, heq =>
      obtain ⟨hg, hgs⟩ := List.forall_mem_cons.mp hgs
      apply ih hfs
      exact ⟨gs, hgs, append_bytes_inj hf hg heq⟩

/-! ## Runs -/

/-- No complete frame can be taken: `next` answered false or an error. -/
def Settled (d : FrameDecoder) : Prop := ∀ frame d', d.next ≠ .ok (some (frame, d'))

/-- The decoder of a connection after some chunks, where `next` is called behind each of them
until it takes no frame. -/
inductive Reached (limits : FrameLimits) : List Bytes → FrameDecoder → Prop
  | start : Reached limits [] { limits }
  | feed {fed : List Bytes} {d : FrameDecoder} (chunk : Bytes) : Reached limits fed d →
      Settled d → Reached limits (fed ++ [chunk]) (d.feed chunk)
  | next {fed : List Bytes} {d d' : FrameDecoder} {frame : Frame} : Reached limits fed d →
      d.next = .ok (some (frame, d')) → Reached limits fed d'

/-- A stretch of chunks that begins behind whole frames and within which no chunk ends with one. -/
structure Stretch (limits : FrameLimits) (before since : List Bytes) : Prop where
  aligned : Aligned limits before.flatten
  last : ∀ a b, since = a ++ b → a ≠ [] → b ≠ [] → ¬ Aligned limits (before ++ a).flatten

/-- The buffer holds the chunks since the last one that ended with a frame, and whole frames of
them are consumed. -/
structure Holds (limits : FrameLimits) (before since : List Bytes) (d : FrameDecoder) : Prop where
  stretch : Stretch limits before since
  limits_eq : d.limits = limits
  buffer : d.buffer = since.flatten
  consumed : Aligned limits (d.buffer.take d.consumed)
  cleared : d.consumed = d.buffer.length → d.buffer = []

theorem Holds.aligned_iff {before since : List Bytes} (h : Holds limits before since d) :
    Aligned limits (before ++ since).flatten ↔ Aligned limits d.pending := by
  rw [List.flatten_append, aligned_append_iff h.stretch.aligned, ← h.buffer, pending]
  conv_lhs => rw [← List.take_append_drop d.consumed d.buffer]
  exact aligned_append_iff h.consumed

/-- Where nothing can be taken from whole frames, nothing is left. -/
theorem pending_eq_nil (hsettled : Settled d) (h : Aligned d.limits d.pending) :
    d.pending = [] := by
  obtain ⟨frames, hframes, hpending⟩ := h
  cases frames with
  | nil => exact hpending
  | cons frame frames =>
    obtain ⟨d', hnext, -⟩ :=
      next_complete (hframes frame (List.mem_cons_self ..)) (hpending.trans (stream_cons ..))
    exact absurd hnext (hsettled frame d')

theorem Holds.buffer_eq_nil {before since : List Bytes} (h : Holds limits before since d)
    (hsettled : Settled d) (haligned : Aligned limits (before ++ since).flatten) :
    d.buffer = [] := by
  have hnil : d.pending = [] := by
    apply pending_eq_nil hsettled
    rw [h.limits_eq]
    exact h.aligned_iff.mp haligned
  apply h.cleared
  have hlen := congrArg List.length hnil
  have := d.within
  rw [length_pending, List.length_nil] at hlen
  omega

/-- A settled decoder with an empty buffer starts a new stretch of chunks. -/
theorem Holds.feed {before since : List Bytes} (h : Holds limits before since d)
    (hsettled : Settled d) (chunk : Bytes) :
    ∃ before' since', before ++ since ++ [chunk] = before' ++ since' ∧
      Holds limits before' since' (d.feed chunk) := by
  have hconsumed : Aligned limits ((d.feed chunk).buffer.take (d.feed chunk).consumed) := by
    change Aligned limits ((d.buffer ++ chunk).take d.consumed)
    rw [List.take_append_of_le_length d.within]
    exact h.consumed
  have hcleared : (d.feed chunk).consumed = (d.feed chunk).buffer.length →
      (d.feed chunk).buffer = [] := by
    intro hall
    have hall : d.consumed = (d.buffer ++ chunk).length := hall
    have hwithin := d.within
    rw [List.length_append] at hall
    have hchunk : chunk = [] := List.eq_nil_of_length_eq_zero (by omega)
    change d.buffer ++ chunk = []
    rw [h.cleared (by omega), hchunk, List.append_nil]
  by_cases haligned : Aligned limits (before ++ since).flatten
  · refine ⟨before ++ since, [chunk], rfl, ⟨haligned, ?_⟩, h.limits_eq, ?_, hconsumed, hcleared⟩
    · intro a b hab ha hb
      have hlen := congrArg List.length hab
      have := List.length_pos_iff.mpr ha
      have := List.length_pos_iff.mpr hb
      simp only [List.length_append, List.length_singleton] at hlen
      omega
    · change d.buffer ++ chunk = _
      rw [h.buffer_eq_nil hsettled haligned]
      simp
  · refine ⟨before, since ++ [chunk], List.append_assoc .., ⟨h.stretch.aligned, ?_⟩, h.limits_eq,
      ?_, hconsumed, hcleared⟩
    · intro a b hab ha hb
      rcases List.eq_nil_or_concat b with rfl | ⟨b', last, rfl⟩
      · exact absurd rfl hb
      · rw [List.concat_eq_append, ← List.append_assoc] at hab
        obtain ⟨hab, -⟩ := List.append_inj' hab rfl
        rcases List.eq_nil_or_concat b' with rfl | ⟨c, x, rfl⟩
        · rw [List.append_nil] at hab
          rwa [← hab]
        · exact h.stretch.last a _ hab ha (by simp)
    · change d.buffer ++ chunk = _
      rw [h.buffer, List.flatten_append]
      simp

/-- A frame taken leaves the buffer as it is, or clears it at its end. -/
theorem next_buffer (h : d.next = .ok (some (frame, d'))) :
    (d'.buffer = d.buffer ∧ d'.consumed = d.consumed + frame.size ∧
        d.consumed + frame.size ≠ d.buffer.length) ∨
      (d'.buffer = [] ∧ d'.consumed = 0 ∧ d.consumed + frame.size = d.buffer.length) := by
  have htaken := next_some h
  rw [next] at h
  split at h
  · cases h
  · simp only [require_bind_eq_ok] at h
    obtain ⟨-, -, -, h⟩ := h
    split at h
    · cases h
    · next hcomplete =>
      obtain ⟨other, -, hother⟩ := bind_eq_ok.mp h
      cases hother
      have htotal : framing.total d.pending = frame.size := by
        have hlen := congrArg List.length htaken.2.1
        rw [pending_consume, List.length_append, List.length_drop, Frame.length_bytes] at hlen
        omega
      simp only [consume, htotal]
      split
      · next hend => exact .inr ⟨rfl, rfl, hend⟩
      · next hend => exact .inl ⟨rfl, rfl, hend⟩

theorem Holds.next {before since : List Bytes} (h : Holds limits before since d)
    (hnext : d.next = .ok (some (frame, d'))) :
    ∃ before' since', before ++ since = before' ++ since' ∧ Holds limits before' since' d' := by
  obtain ⟨hsendable, hpending, hlimits⟩ := next_some hnext
  rw [h.limits_eq] at hsendable
  have hfront : d.buffer.take (d.consumed + frame.size) =
      d.buffer.take d.consumed ++ frame.bytes := by
    rw [List.take_add, ← pending, hpending, ← Frame.length_bytes, List.take_left]
  have haligned : Aligned limits (d.buffer.take (d.consumed + frame.size)) := by
    rw [hfront]
    exact h.consumed.append (aligned_bytes hsendable)
  rcases next_buffer hnext with ⟨hbuffer, hconsumed, hend⟩ | ⟨hbuffer, hconsumed, hend⟩
  · refine ⟨before, since, rfl, h.stretch, hlimits.trans h.limits_eq, hbuffer.trans h.buffer, ?_, ?_⟩
    · rwa [hbuffer, hconsumed]
    · intro hall
      rw [hbuffer, hconsumed] at hall
      exact absurd hall hend
  · refine ⟨before ++ since, [], (List.append_nil _).symm, ⟨?_, ?_⟩, hlimits.trans h.limits_eq,
      hbuffer, ?_, fun _ ↦ hbuffer⟩
    · rw [hend, List.take_length, h.buffer] at haligned
      rw [List.flatten_append]
      exact h.stretch.aligned.append haligned
    · intro a b hab ha
      exact absurd (List.append_eq_nil_iff.mp hab.symm).1 ha
    · rw [hbuffer, List.take_nil]
      exact aligned_nil

/-- **What is kept**: along every connection the buffer holds the chunks since the last one that
ended with a frame. -/
theorem Reached.holds (h : Reached limits fed d) :
    ∃ before since, fed = before ++ since ∧ Holds limits before since d := by
  induction h with
  | start =>
    refine ⟨[], [], rfl, ⟨aligned_nil, ?_⟩, rfl, rfl, aligned_nil, fun _ ↦ rfl⟩
    intro a b hab ha
    exact absurd (List.append_eq_nil_iff.mp hab.symm).1 ha
  | feed chunk _ hsettled ih =>
    obtain ⟨before, since, rfl, hholds⟩ := ih
    exact hholds.feed hsettled chunk
  | next _ hnext ih =>
    obtain ⟨before, since, rfl, hholds⟩ := ih
    exact hholds.next hnext

/-! ## Every stretch is held -/

/-- Taking frames comes to an end. -/
theorem Reached.settle (h : Reached limits fed d) :
    ∃ d', Reached limits fed d' ∧ Settled d' ∧ (d'.buffer = d.buffer ∨ d'.buffer = []) := by
  induction hn : d.pending.length using Nat.strong_induction_on generalizing d with
  | _ n ih =>
    by_cases hsettled : Settled d
    · exact ⟨d, h, hsettled, .inl rfl⟩
    · simp only [Settled, not_forall, not_not] at hsettled
      obtain ⟨frame, behind, hnext⟩ := hsettled
      have hlen := congrArg List.length (next_some hnext).2.1
      have hsize := frame.header_le_size
      simp only [List.length_append, Frame.length_bytes, frameHeaderBytes] at hlen hsize
      obtain ⟨d', hreached, hdone, hbuffer⟩ :=
        ih behind.pending.length (by omega) (h.next hnext) rfl
      refine ⟨d', hreached, hdone, ?_⟩
      rcases next_buffer hnext with ⟨hsame, -⟩ | ⟨hnil, -⟩
      · rwa [← hsame]
      · rw [hnil, or_self] at hbuffer
        exact .inr hbuffer

theorem exists_reached (limits : FrameLimits) (fed : List Bytes) : ∃ d, Reached limits fed d := by
  induction fed using List.reverseRecOn with
  | nil => exact ⟨_, .start⟩
  | append_singleton fed chunk ih =>
    obtain ⟨d, hreached⟩ := ih
    obtain ⟨d', hreached', hsettled, -⟩ := hreached.settle
    exact ⟨_, hreached'.feed chunk hsettled⟩

/-- Until a chunk of the stretch ends with a frame, all its bytes are kept. -/
theorem Stretch.reached_settled {before since : List Bytes} (h : Stretch limits before since)
    (a b : List Bytes) (hab : since = a ++ b) (hb : b ≠ []) :
    ∃ d, Reached limits (before ++ a) d ∧ Settled d ∧ d.buffer = a.flatten := by
  induction a using List.reverseRecOn generalizing b with
  | nil =>
    obtain ⟨d, hreached⟩ := exists_reached limits before
    obtain ⟨d', hreached', hsettled, -⟩ := hreached.settle
    obtain ⟨first, later, hsplit, hholds⟩ := hreached'.holds
    refine ⟨d', by rwa [List.append_nil], hsettled, ?_⟩
    apply hholds.buffer_eq_nil hsettled
    rw [← hsplit]
    exact h.aligned
  | append_singleton a chunk ih =>
    obtain ⟨d, hreached, hsettled, hbuffer⟩ :=
      ih ([chunk] ++ b) (by rw [hab, List.append_assoc]) (by simp)
    obtain ⟨d', hreached', hsettled', hkept⟩ := (hreached.feed chunk hsettled).settle
    rw [List.append_assoc] at hreached'
    have hfed : (d.feed chunk).buffer = (a ++ [chunk]).flatten := by
      change d.buffer ++ chunk = _
      rw [hbuffer, List.flatten_append]
      simp
    refine ⟨d', hreached', hsettled', ?_⟩
    rcases hkept with hsame | hnil
    · exact hsame.trans hfed
    · obtain ⟨first, later, hsplit, hholds⟩ := hreached'.holds
      have hlater : later.flatten = [] := hholds.buffer.symm.trans hnil
      refine absurd ?_ (h.last (a ++ [chunk]) b hab (by simp) hb)
      rw [hsplit, List.flatten_append, hlater, List.append_nil]
      exact hholds.stretch.aligned

/-- Every stretch is in the buffer at its end. -/
theorem Stretch.reached {before since : List Bytes} (h : Stretch limits before since) :
    ∃ d, Reached limits (before ++ since) d ∧ d.buffer = since.flatten := by
  rcases List.eq_nil_or_concat since with rfl | ⟨front, last, rfl⟩
  · obtain ⟨d, hreached⟩ := exists_reached limits before
    obtain ⟨d', hreached', hsettled, -⟩ := hreached.settle
    obtain ⟨first, later, hsplit, hholds⟩ := hreached'.holds
    refine ⟨d', by rwa [List.append_nil], hholds.buffer_eq_nil hsettled ?_⟩
    rw [← hsplit]
    exact h.aligned
  · rw [List.concat_eq_append] at h ⊢
    obtain ⟨d, hreached, hsettled, hbuffer⟩ := h.reached_settled front [last] rfl (by simp)
    refine ⟨d.feed last, ?_, ?_⟩
    · rw [← List.append_assoc]
      exact hreached.feed last hsettled
    · change d.buffer ++ last = _
      rw [hbuffer, List.flatten_append]
      simp

/-! ## The bound -/

/-- The bytes a decoder needs at most for one frame and the chunk behind it. -/
def frameRoom (limits : FrameLimits) (k : Nat) : Nat :=
  frameHeaderBytes + limits.maxFrameBytes.toNat + frameTrailerBytes + k

/-- The buffer stays within the room for one frame and one chunk exactly where chunks end with
frames often enough: every stretch of chunks between two that do has at most that many bytes. -/
theorem buffer_bounded_iff (limits : FrameLimits) (k : Nat) (chunks : List Bytes) :
    (∀ fed, fed <+: chunks → ∀ d, Reached limits fed d →
        d.buffer.length ≤ frameRoom limits k) ↔
      ∀ before since, before ++ since <+: chunks → Stretch limits before since →
        since.flatten.length ≤ frameRoom limits k := by
  constructor
  · intro h before since hfront hstretch
    obtain ⟨d, hreached, hbuffer⟩ := hstretch.reached
    rw [← hbuffer]
    exact h _ hfront d hreached
  · intro h fed hfront d hreached
    obtain ⟨before, since, rfl, hholds⟩ := hreached.holds
    rw [hholds.buffer]
    exact h before since hfront hholds.stretch

/-! ## Frames across chunks -/

/-- A request to answer a ping, which carries no payload. -/
def ping : Frame := { opcode := 2 }

theorem sendable_ping : Sendable limits ping := ⟨by decide, Nat.zero_le _⟩

/-- All of a ping but its last byte. -/
def pingFront : Bytes := ping.bytes.take 23

/-- The last byte of a ping and all of the next but its last byte. -/
def pingAcross : Bytes := ping.bytes.drop 23 ++ pingFront

theorem length_pingFront : pingFront.length = 23 := by
  rw [pingFront, List.length_take, Frame.length_bytes]
  decide

theorem length_pingAcross : pingAcross.length = 24 := by
  rw [pingAcross, List.length_append, length_pingFront, List.length_drop, Frame.length_bytes]
  decide

/-- Pings sent one behind the other and read a byte short each time. -/
def shifted (n : Nat) : List Bytes := pingFront :: List.replicate n pingAcross

theorem flatten_shifted (n : Nat) :
    (shifted n).flatten = stream (List.replicate n ping) ++ pingFront := by
  induction n with
  | zero => simp [shifted]
  | succ n ih =>
    rw [shifted, List.flatten_cons] at ih
    rw [shifted, List.flatten_cons, List.replicate_succ', List.flatten_append, ← List.append_assoc,
      ih, List.replicate_succ', stream_append, List.append_assoc, List.append_assoc]
    simp only [List.flatten_singleton, pingAcross, stream_cons, stream_nil, List.append_nil]
    rw [← List.append_assoc pingFront, pingFront, List.take_append_drop]

theorem length_shifted (n : Nat) : (shifted n).flatten.length = 23 + 24 * n := by
  rw [shifted, List.flatten_cons, List.length_append, length_pingFront,
    List.length_flatten, List.map_replicate, List.sum_replicate_nat, length_pingAcross]
  omega

/-- No chunk of them ends with a frame. -/
theorem not_aligned_shifted (n : Nat) : ¬ Aligned limits (shifted n).flatten := by
  have hpings : Aligned limits (stream (List.replicate n ping)) := by
    refine ⟨_, ?_, rfl⟩
    intro frame hframe
    rw [List.eq_of_mem_replicate hframe]
    exact sendable_ping
  rw [flatten_shifted, aligned_append_iff hpings]
  rintro ⟨frames, -, heq⟩
  have hlen := congrArg List.length heq
  rw [length_pingFront] at hlen
  cases frames with
  | nil => simp at hlen
  | cons frame frames =>
    have := frame.header_le_size
    rw [stream_cons, List.length_append, Frame.length_bytes] at hlen
    simp only [frameHeaderBytes, frameTrailerBytes] at this
    omega

theorem stretch_shifted (n : Nat) : Stretch limits [] (shifted n) where
  aligned := aligned_nil
  last := by
    intro a b hab ha _
    match a, ha, hab with
    | first :: later, _, hab =>
      obtain ⟨rfl, hlater⟩ := List.cons.inj hab
      have : later = List.replicate later.length pingAcross := by
        apply List.eq_replicate_iff.mpr
        refine ⟨rfl, fun x hx ↦ ?_⟩
        apply List.eq_of_mem_replicate
        rw [hlater]
        exact List.mem_append_left _ hx
      rw [this]
      exact not_aligned_shifted later.length

/-- Under the default limit of 1 MiB and in chunks of 24 bytes, pings read a byte short fill the
buffer past the room for one frame and one chunk. -/
theorem buffer_not_bounded : ¬ ∀ (limits : FrameLimits) (k : Nat) (fed : List Bytes)
    (d : FrameDecoder), (∀ chunk ∈ fed, chunk.length ≤ k) → Reached limits fed d →
      d.buffer.length ≤ frameRoom limits k := by
  intro h
  obtain ⟨d, hreached, hbuffer⟩ := (@stretch_shifted {} 43692).reached
  have hle := h {} 24 (shifted 43692) d ?_ hreached
  · rw [hbuffer, length_shifted] at hle
    exact absurd hle (by decide)
  · intro chunk hchunk
    rcases List.mem_cons.mp hchunk with rfl | hmem
    · rw [length_pingFront]
      decide
    · rw [List.eq_of_mem_replicate hmem, length_pingAcross]

end FrameDecoder

end OffloadFabric.Service
