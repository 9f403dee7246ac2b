import OffloadFabric.Lib.Simulation
import OffloadFabric.Properties.ResponseCache
import OffloadFabric.Service.Connection

/-!
# Served calls

What a client is answered over a connection is what the server answers when it is called in its
process (`src/service.cpp:476-586,1381-1383,1463-1484`), whatever the chunks that requests and
answers arrive in: frames and errors alike, and in the order of the requests.
-/

namespace OffloadFabric

open Lib Lib.Coder Lib.Fallible

namespace Service

variable {c : FabricConfig} {reports : Reports} {env : Nat → Circumstances} {b : Bounds}

/-! ## Error payloads -/

/-- The bounds of the two ends of a connection: they agree on frames, and the client takes a text
as long as any detail the server sends. -/
structure Fitting (c : FabricConfig) (b : Bounds) : Prop where
  valid : c.bounds.validate = .ok ()
  frames : b.maxFrameBytes = c.bounds.maxFrameBytes
  details : c.bounds.maxReasonDetailBytes ≤ b.maxTextBytes

/-- What the validation of the bounds leaves of frames and details, `src/bounds.cpp:73-93`. -/
theorem bounds_of_validate {b : Bounds} (h : b.validate = .ok ()) :
    b.maxFrameBytes.toNat ≤ 2 ^ 30 ∧ b.maxReasonDetailBytes.toNat ≤ 65536 := by
  unfold Bounds.validate at h
  simp only [require_bind_eq_ok] at h
  obtain ⟨-, -, -, -, -, -, -, -, -, -, -, -, -, -, -, hframe, -, -, -, -, hdetail, -⟩ := h
  exact ⟨UInt64.le_iff_toNat_le.mp hframe.2, UInt64.le_iff_toNat_le.mp hdetail.2⟩

/-- The detail of an error as it is sent. -/
private def sentDetail (b : Bounds) (e : Error) : Bytes :=
  (ascii e.detail).take b.maxReasonDetailBytes.toNat

private theorem length_sentDetail (b : Bounds) (e : Error) :
    (sentDetail b e).length ≤ b.maxReasonDetailBytes.toNat :=
  List.length_take_le _ _

/-- The writer of an error payload. -/
private def errorWriter (b : Bounds) (e : Error) : Writer := do
  Writer.reasonCode e.code
  Writer.text (sentDetail b e)

/-- The writer of an error payload never refuses. -/
private theorem run_errorWriter (hdetail : b.maxReasonDetailBytes.toNat ≤ 65536) (e : Error) :
    ∃ payload, (errorWriter b e).run (b.maxReasonDetailBytes + 64).toNat [] = (.ok (), payload) ∧
      payload.length = 6 + (sentDetail b e).length := by
  have hlen := length_sentDetail b e
  have hlimit : (b.maxReasonDetailBytes + 64).toNat = b.maxReasonDetailBytes.toNat + 64 := by
    rw [UInt64.toNat_add, Nat.mod_eq_of_lt]
    · rfl
    · show b.maxReasonDetailBytes.toNat + 64 < _
      omega
  refine ⟨le 2 e.code.code.toNat ++ (le 4 (sentDetail b e).length ++ sentDetail b e), ?_, ?_⟩
  · have hsize : (UInt32.ofNat (sentDetail b e).length).toNat = (sentDetail b e).length := by
      rw [UInt32.toNat_ofNat', Nat.mod_eq_of_lt (by omega)]
    unfold errorWriter Writer.reasonCode Writer.u16 Writer.text Writer.u32
    rw [hlimit, run_bind, Writer.run_append, if_pos (by simp), if_pos (by omega)]
    simp only [List.nil_append]
    rw [run_bind, Writer.run_append, if_pos (by simp [hsize])]
    simp only
    rw [Writer.run_append, hsize, if_pos (by simp only [List.length_append, length_le]; omega)]
    rw [List.append_assoc]
  · simp only [List.length_append, length_le]
    omega

/-- **An error is read back from its payload**, but for what its bound cuts off its detail. -/
theorem decodeErrorPayload_encode (h : Fitting c b) (e : Error) :
    decodeErrorPayload b (encodeErrorPayload c.bounds e) = .ok (carried c.bounds e) ∧
      (encodeErrorPayload c.bounds e).length = 6 + (sentDetail c.bounds e).length := by
  obtain ⟨-, hdetail⟩ := bounds_of_validate h.valid
  have hlen := length_sentDetail c.bounds e
  have htext := UInt64.le_iff_toNat_le.mp h.details
  obtain ⟨payload, hrun, hlength⟩ := run_errorWriter hdetail e
  have hpayload : encodeErrorPayload c.bounds e = payload := by
    unfold errorWriter sentDetail at hrun
    unfold encodeErrorPayload Writer.encode
    rw [hrun]
  have htrip : RoundTrip (errorWriter c.bounds e) (c.bounds.maxReasonDetailBytes + 64).toNat
      (do
        let code ← Reader.reasonCode "error payload carries an unknown reason code"
        let detail ← Reader.text
        return (⟨code, Bytes.text detail⟩ : Error)) b.maxTextBytes.toNat (carried c.bounds e)
      (True ∧ (sentDetail c.bounds e).length ≤ b.maxTextBytes.toNat) :=
    (roundTrip_reasonCode _ e.code).bind ((roundTrip_text _).last fun detail ↦
      (⟨e.code, Bytes.text detail⟩ : Error))
  obtain ⟨p, hp, haccepts, -⟩ := htrip [] payload hrun
  rw [List.nil_append] at hp
  have hread := haccepts ⟨trivial, by omega⟩ []
  rw [List.append_nil, ← hp] at hread
  rw [hpayload]
  refine ⟨?_, hlength⟩
  unfold decodeErrorPayload Reader.decode
  rw [hread]

/-! ## Answers of the server -/

/-- No cached response is flagged as an error. -/
def Server.FlagsClear (s : Server) : Prop :=
  ∀ (id : UInt64) (entry : CachedResponse), s.cache[id]? = some entry → entry.flags = 0

theorem Server.FlagsClear.same {s t : Server} (h : s.FlagsClear) (hsame : SameCache s t) :
    t.FlagsClear := by
  intro id entry hentry
  rw [hsame.cache] at hentry
  exact h id entry hentry

theorem Server.FlagsClear.remember {s : Server} (h : s.FlagsClear) (request : Frame)
    (payload : Bytes) : (((remember b request payload 0).exec s).2).FlagsClear := by
  unfold Service.remember
  split
  · exact h
  · rw [exec_modify]
    unfold FlagsClear
    dsimp only
    intro id entry hentry
    split at hentry
    · next order kept hevict =>
      have hfound := Fifo.getElem?_of_evict hevict hentry
      rw [Std.ExtTreeMap.getElem?_insert] at hfound
      split at hfound
      · cases hfound
        rfl
      · exact h id entry hfound
    · simp at hentry

/-- Handling a request keeps the flags clear. -/
theorem Server.FlagsClear.handle {s : Server} (h : s.FlagsClear) (a : Arrival) :
    (((handleRequest c reports a).exec s).2).FlagsClear := by
  have hhandled := handled c reports s a
  unfold serve at hhandled
  generalize ((handleRequest c reports a).exec s).1 = r at hhandled
  generalize ((handleRequest c reports a).exec s).2 = t at hhandled
  cases hhandled with
  | recalled => exact h
  | reused => exact h
  | passed hsame => exact h.same hsame
  | stored payload hsame => exact (h.same hsame).remember _ _

/-- An answer is not flagged, and carries the opcode and the identifier of its request. -/
structure Answers (request response : Frame) : Prop where
  opcode : response.opcode = request.opcode
  requestId : response.requestId = request.requestId
  flags : response.flags = 0

/-- What the server answers, it answers to the request. -/
theorem handleRequest_answers {s t : Server} (h : s.FlagsClear) {a : Arrival} {response : Frame}
    (hok : (handleRequest c reports a).exec s = (.ok response, t)) :
    Answers a.request response := by
  unfold handleRequest at hok
  obtain ⟨found, u, hcached, hok⟩ := exec_bind_ok hok
  cases found with
  | some recalled =>
    cases hok
    unfold cachedResponse at hcached
    simp only [exec_bind, exec_get] at hcached
    split at hcached
    · cases hcached
    · split at hcached
      · cases hcached
      · next entry hentry =>
        split at hcached
        · cases hcached
          exact ⟨rfl, rfl, h _ _ hentry⟩
        · cases hcached
  | none =>
    simp only at hok
    split at hok
    · cases hok
    · obtain ⟨payload, v, -, hok⟩ := exec_bind_ok hok
      split at hok
      · obtain ⟨_, w, -, hok⟩ := exec_bind_ok hok
        cases hok
        exact ⟨rfl, rfl, rfl⟩
      · cases hok
        exact ⟨rfl, rfl, rfl⟩

/-- The length of the payload that answers. -/
def payloadLength (b : Bounds) : Result Frame → Nat
  | .ok response => response.payload.length
  | .error e => 6 + (sentDetail b e).length

/-- **What a client makes of an answer is what the server answered**, errors as they are carried. -/
theorem correlate_respond (h : Fitting c b) {s t : Server} (hs : s.FlagsClear) {a : Arrival}
    {r : Result Frame} (hexec : (handleRequest c reports a).exec s = (r, t)) :
    ∃ response, respond c reports a s = (response, t) ∧
      response.payload.length = payloadLength c.bounds r ∧
      correlate b a.request response = r.mapError (carried c.bounds) := by
  cases r with
  | ok response =>
    obtain ⟨-, hid, hflags⟩ := handleRequest_answers hs hexec
    refine ⟨response, ?_, rfl, ?_⟩
    · unfold respond
      rw [hexec]
    · unfold correlate require
      rw [if_pos hid, hflags]
      rfl
  | error e =>
    obtain ⟨hread, hlength⟩ := decodeErrorPayload_encode h e
    refine ⟨{ a.request with flags := flagError, payload := encodeErrorPayload c.bounds e }, ?_,
      hlength, ?_⟩
    · unfold respond
      rw [hexec]
    · unfold correlate require
      have hflag : flagError &&& flagError ≠ 0 := by decide
      rw [if_pos rfl]
      simp only [if_pos hflag, hread]
      rfl

/-! ## The ends of a connection -/

/-- A frame within the bound of frames can be sent. -/
theorem sendable_of_le (h : b.validate = .ok ()) {frame : Frame}
    (hlength : frame.payload.length ≤ b.maxFrameBytes.toNat) :
    FrameDecoder.Sendable (frameLimits b) frame := by
  obtain ⟨hframes, -⟩ := bounds_of_validate h
  refine ⟨?_, hlength⟩
  show frame.payload.length < 2 ^ 32
  omega

/-- Sending a frame checks its bound only. -/
theorem encodeFrame_eq (h : b.validate = .ok ()) (frame : Frame) :
    encodeFrame frame (frameLimits b) =
      if frame.payload.length ≤ b.maxFrameBytes.toNat then .ok frame.bytes
      else .error ⟨.payloadTooLarge, "frame payload exceeds the configured bound"⟩ := by
  obtain ⟨hframes, -⟩ := bounds_of_validate h
  unfold encodeFrame
  split
  · next hlength =>
    have hsize : frame.size < 2 ^ 64 := by
      simp only [Frame.size, frameHeaderBytes, frameTrailerBytes]
      omega
    simp only [require_bind_eq_ok]
    exact ⟨hlength, hsize, rfl⟩
  · next hlength =>
    unfold require
    rw [if_neg (show ¬ frame.payload.length ≤ (frameLimits b).maxFrameBytes.toNat from hlength)]
    rfl

/-- What one request comes to at the server's end. -/
theorem answer_eq (h : c.bounds.validate = .ok ()) {k : ServerEnd} {request response : Frame}
    {t : Server}
    (hrespond : respond c reports ((env k.handled).arrival request) k.server = (response, t)) :
    ServerEnd.answer c reports env k request =
      if response.payload.length ≤ c.bounds.maxFrameBytes.toNat then
        { server := t
          sent := k.sent ++ response.bytes
          handled := k.handled + 1
          reading := request.opcode != Opcode.shutdown.code }
      else { k with server := t, handled := k.handled + 1, reading := false } := by
  unfold ServerEnd.answer
  rw [hrespond]
  by_cases hlength : response.payload.length ≤ c.bounds.maxFrameBytes.toNat
  · simp only [encodeFrame_eq h, if_pos hlength]
  · simp only [encodeFrame_eq h, if_neg hlength]

/-- A whole frame that arrives in chunks is received, and nothing is left of it. -/
theorem receiveFrame_whole {d : FrameDecoder} {frame : Frame} {chunks : List Bytes}
    (hframe : FrameDecoder.Sendable d.limits frame)
    (hwhole : d.pending ++ chunks.flatten = frame.bytes) (hchunks : ∀ chunk ∈ chunks, chunk ≠ []) :
    ∃ d', receiveFrame chunks d = (.ok frame, d', []) ∧ d'.limits = d.limits ∧
      d'.pending = [] := by
  induction chunks generalizing d with
  | nil =>
    rw [List.flatten_nil, List.append_nil] at hwhole
    obtain ⟨d', hnext, hlimits, hpending⟩ :=
      FrameDecoder.next_complete hframe (hwhole.trans (List.append_nil _).symm)
    refine ⟨d', ?_, hlimits, hpending⟩
    unfold receiveFrame
    rw [hnext]
  | cons chunk chunks ih =>
    obtain ⟨hchunk, hchunks⟩ := List.forall_mem_cons.mp hchunks
    have hlen := congrArg List.length hwhole
    rw [List.flatten_cons, List.length_append, List.length_append, Frame.length_bytes] at hlen
    have hpos := List.length_pos_iff.mpr hchunk
    have hpart : d.next = .ok none := by
      refine FrameDecoder.next_part hframe (show d.pending.length < frame.size by omega) ?_
      rw [← hwhole, List.take_left]
    have hfeed : (d.feed chunk).pending ++ chunks.flatten = frame.bytes := by
      rw [FrameDecoder.pending_feed, List.append_assoc, ← List.flatten_cons, hwhole]
    obtain ⟨d', hreceive, hlimits, hpending⟩ := ih (d := d.feed chunk) hframe hfeed hchunks
    refine ⟨d', ?_, hlimits, hpending⟩
    unfold receiveFrame
    rw [hpart]
    exact hreceive

/-- Where nothing is left to arrive, the peer has closed. -/
theorem receiveFrame_nil {d : FrameDecoder} (h : d.pending = []) :
    receiveFrame [] d = (.error peerClosed, d, []) := by
  unfold receiveFrame
  rw [FrameDecoder.next_nil h]

/-! ## Calls -/

/-- A server that is called in its process, `Server::dispatch` (`src/service.cpp:1381-1383`), for as
long as a connection to it would stand. -/
structure Line where
  server : Server
  standing : Bool := true

/-- A call in the process: the answer of the server itself, unless the request or the answer is no
frame that can be sent. An orderly shutdown and an answer that cannot be sent are the last. -/
def Line.call (c : FabricConfig) (reports : Reports) (i : Call) : Fallible Line Error Frame := do
  check (i.request.payload.length ≤ c.bounds.maxFrameBytes.toNat)
    ⟨.payloadTooLarge, "frame payload exceeds the configured bound"⟩
  let line ← get
  check (line.standing = true) (i.refusal.getD peerClosed)
  let (r, server) := (handleRequest c reports (i.circumstances.arrival i.request)).exec line.server
  let sent : Bool := payloadLength c.bounds r ≤ c.bounds.maxFrameBytes.toNat
  set ({ server, standing := sent && i.request.opcode != Opcode.shutdown.code } : Line)
  check (sent = true) peerClosed
  liftExcept (r.mapError (carried c.bounds))

/-- A connection stands for a line: nothing is under way on it. -/
structure StandsFor (c : FabricConfig) (k : Connection) (line : Line) : Prop where
  server : k.server = line.server
  standing : k.standing = line.standing
  clear : line.server.FlagsClear
  listening : line.standing = true →
    k.atServer.limits = frameLimits c.bounds ∧ k.atServer.pending = []
  limits : k.atClient.limits = frameLimits c.bounds
  idle : k.atClient.pending = []
  arrived : k.arriving = []

/-- What the server's end makes of one whole request. -/
private theorem handleConnection_one (h : c.bounds.validate = .ok ()) {d : FrameDecoder}
    {request : Frame} (hlength : request.payload.length ≤ c.bounds.maxFrameBytes.toNat)
    (hlimits : d.limits = frameLimits c.bounds) (hpending : d.pending = [])
    (up : Transfer request.bytes) {k : ServerEnd} (hreading : k.reading = true) :
    ∃ d', ServerEnd.handleConnection c reports env up.chunks d k =
        (d', ServerEnd.answer c reports env k request) ∧
      ((ServerEnd.answer c reports env k request).reading = true →
        d'.limits = frameLimits c.bounds ∧ d'.pending = []) := by
  have hsendable : ∀ frame ∈ [request], FrameDecoder.Sendable d.limits frame := by
    rw [hlimits]
    simpa using sendable_of_le h hlength
  have hwhole : up.chunks.flatten = FrameDecoder.stream [request] := by
    rw [up.whole, FrameDecoder.stream_cons, FrameDecoder.stream_nil, List.append_nil]
  obtain ⟨d', hreceive, hlimits', hpending'⟩ :=
    FrameDecoder.receive_whole hsendable hpending hwhole
  obtain ⟨hend, hdecoder⟩ := @ServerEnd.handleConnection_eq c reports env _ _ k _ _ hreceive
  rw [ServerEnd.answerAll_cons, if_pos hreading, ServerEnd.answerAll_nil] at hend hdecoder
  cases hserved : ServerEnd.handleConnection c reports env up.chunks d k with
  | mk d'' served =>
    rw [hserved] at hend hdecoder
    cases hend
    refine ⟨d'', rfl, fun hstands ↦ ?_⟩
    cases hdecoder hstands
    exact ⟨hlimits'.trans hlimits, hpending'⟩

/-- Nothing arrives in no chunks. -/
theorem Transfer.chunks_nil (transfer : Transfer []) : transfer.chunks = [] := by
  cases hchunks : transfer.chunks with
  | nil => rfl
  | cons chunk chunks =>
    have hwhole := transfer.whole
    have hread := (transfer.read chunk (by rw [hchunks]; exact List.mem_cons_self)).1
    rw [hchunks, List.flatten_cons] at hwhole
    exact absurd (List.append_eq_nil_iff.mp hwhole).1 hread

/-- What the line answers to a request that can be sent. -/
private theorem Line.exec_call {line : Line} {i : Call} {r : Result Frame} {t : Server}
    (hlength : i.request.payload.length ≤ c.bounds.maxFrameBytes.toNat)
    (hstanding : line.standing = true)
    (hexec : (handleRequest c reports (i.circumstances.arrival i.request)).exec line.server =
      (r, t)) : (Line.call c reports i).exec line =
      if payloadLength c.bounds r ≤ c.bounds.maxFrameBytes.toNat then
        (r.mapError (carried c.bounds), ⟨t, i.request.opcode != Opcode.shutdown.code⟩)
      else (.error peerClosed, ⟨t, false⟩) := by
  unfold Line.call check
  rw [if_pos hlength]
  simp only [exec_bind, exec_pure, exec_get, if_pos hstanding, hexec, exec_set]
  by_cases hsent : payloadLength c.bounds r ≤ c.bounds.maxFrameBytes.toNat
  · simp [hsent]
  · simp [hsent]

/-- What a call over a standing connection comes to. -/
private theorem Connection.exec_call {k : Connection} {i : Call} {data : Bytes}
    {d d' : FrameDecoder} {served : ServerEnd} {response : Result Frame} {rest : List Bytes}
    (hencode : encodeFrame i.request (frameLimits b) = .ok data) (hstanding : k.standing = true)
    (hserved : ServerEnd.handleConnection c reports (fun _ ↦ i.circumstances) (i.up data).chunks
      k.atServer { server := k.server } = (d, served))
    (hreceive : receiveFrame (k.arriving ++ (i.down served.sent).chunks) k.atClient =
      (response, d', rest)) :
    (Connection.call c reports b i).exec k =
      (response >>= correlate b i.request, ⟨served.server, d, d', rest, served.reading⟩) := by
  unfold Connection.call
  rw [hencode]
  simp only [exec_bind, exec_liftExcept, exec_get, if_pos hstanding]
  rw [hserved]
  dsimp only
  rw [hreceive]
  cases response with
  | error e => rfl
  | ok response =>
    simp only [exec_set]
    rfl

/-- What a call comes to when the peer has closed and nothing is left to arrive. -/
private theorem Connection.exec_call_ended {k : Connection} {i : Call} {data : Bytes}
    (hencode : encodeFrame i.request (frameLimits b) = .ok data) (hstanding : k.standing = false)
    (hidle : k.atClient.pending = []) (harrived : k.arriving = []) :
    (Connection.call c reports b i).exec k = (.error (i.refusal.getD peerClosed), k) := by
  have hreceive : receiveFrame k.arriving k.atClient = (.error peerClosed, k.atClient, []) := by
    rw [harrived]
    exact receiveFrame_nil hidle
  unfold Connection.call
  rw [hencode]
  simp only [exec_bind, exec_liftExcept, exec_get, hstanding, Bool.false_eq_true, if_false]
  cases i.refusal with
  | some e => rfl
  | none =>
    simp only
    rw [hreceive]
    simp only [exec_bind, exec_set, exec_liftExcept, Option.getD_none]
    rw [← harrived, ← hstanding]

/-- **Every call over a connection** is answered as the line answers it, and leaves a connection
that stands for the line. -/
theorem Connection.call_agree (h : Fitting c b) (k : Connection) (line : Line) (i : Call)
    (hstands : StandsFor c k line) :
    Agree (StandsFor c) (Connection.call c reports b i) (Line.call c reports i) k line := by
  have hlimits : frameLimits b = frameLimits c.bounds := by
    unfold frameLimits
    rw [h.frames]
  obtain ⟨server, atServer, atClient, arriving, standing⟩ := k
  obtain ⟨hserver, hstanding, hclear, hlistening, hclient, hidle, harrived⟩ := hstands
  cases hserver
  cases hstanding
  cases harrived
  by_cases hlength : i.request.payload.length ≤ c.bounds.maxFrameBytes.toNat
  · have hencode : encodeFrame i.request (frameLimits b) = .ok i.request.bytes := by
      rw [hlimits, encodeFrame_eq h.valid, if_pos hlength]
    cases hstanding : line.standing with
    | false =>
      -- the peer has closed, and nothing of an earlier answer is left
      have hline : (Line.call c reports i).exec line =
          (.error (i.refusal.getD peerClosed), line) := by
        unfold Line.call check
        rw [if_pos hlength]
        simp [exec_bind, hstanding]
      refine .of_exec (Connection.exec_call_ended hencode hstanding hidle rfl) hline ?_
      exact ⟨rfl, rfl, hclear, hlistening, hclient, hidle, rfl⟩
    | true =>
      obtain ⟨hserverLimits, hlistens⟩ := hlistening hstanding
      cases hexec : (handleRequest c reports (i.circumstances.arrival i.request)).exec
        line.server with
      | mk r t =>
        obtain ⟨response, hrespond, hpayload, hcorrelate⟩ := correlate_respond h hclear hexec
        have hkept : t.FlagsClear := by
          have hkept := @Server.FlagsClear.handle c reports _ hclear
            (i.circumstances.arrival i.request)
          rwa [hexec] at hkept
        obtain ⟨d, hserved, hnext⟩ := @handleConnection_one c reports (fun _ ↦ i.circumstances)
          h.valid _ _ hlength hserverLimits hlistens (i.up _) { server := line.server } rfl
        have hanswer := @answer_eq c reports (fun _ ↦ i.circumstances) h.valid
          { server := line.server } i.request response t hrespond
        rw [hpayload] at hanswer
        have hline := Line.exec_call hlength hstanding hexec
        by_cases hsent : payloadLength c.bounds r ≤ c.bounds.maxFrameBytes.toNat
        · rw [if_pos hsent] at hanswer hline
          rw [hanswer] at hserved hnext
          have hsendable : FrameDecoder.Sendable atClient.limits response := by
            rw [hclient]
            exact sendable_of_le h.valid (hpayload ▸ hsent)
          have hwhole : atClient.pending ++ (i.down ([] ++ response.bytes)).chunks.flatten =
              response.bytes := by
            rw [hidle, (i.down _).whole, List.nil_append, List.nil_append]
          obtain ⟨d', hreceive, hlimits', hidle'⟩ := receiveFrame_whole hsendable hwhole
            fun chunk hchunk ↦ ((i.down _).read chunk hchunk).1
          rw [← hcorrelate] at hline
          refine .of_exec (Connection.exec_call hencode hstanding hserved hreceive) hline ?_
          exact ⟨rfl, rfl, hkept, hnext, hlimits'.trans hclient, hidle', rfl⟩
        · rw [if_neg hsent] at hanswer hline
          rw [hanswer] at hserved
          have hreceive : receiveFrame ([] ++ (i.down []).chunks) atClient =
              (.error peerClosed, atClient, []) := by
            rw [(i.down []).chunks_nil, List.append_nil]
            exact receiveFrame_nil hidle
          refine .of_exec (Connection.exec_call hencode hstanding hserved hreceive) hline ?_
          exact ⟨rfl, rfl, hkept, fun hstands ↦ absurd hstands Bool.false_ne_true, hclient, hidle, rfl⟩
  · have hencode : encodeFrame i.request (frameLimits b) =
        .error ⟨.payloadTooLarge, "frame payload exceeds the configured bound"⟩ := by
      rw [hlimits, encodeFrame_eq h.valid, if_neg hlength]
    unfold Connection.call Line.call check
    rw [hencode, if_neg hlength]
    exact ⟨rfl, rfl, rfl, hclear, hlistening, hclient, hidle, rfl⟩

/-- **Calls over a connection are answered as dispatched**: whatever the chunks that requests and
answers arrive in, a client gets what the server answers in its process, errors included, and the
server is left as by those calls. -/
theorem calls_answered_as_dispatched (h : Fitting c b) {server : Server}
    (hclear : server.FlagsClear) (calls : List Call) :
    (answers (Connection.call c reports b) calls (.connect c b server)).1 =
        (answers (Line.call c reports) calls { server }).1 ∧
      (answers (Connection.call c reports b) calls (.connect c b server)).2.server =
        (answers (Line.call c reports) calls { server }).2.server := by
  have hstands : StandsFor c (.connect c b server) { server } := by
    refine ⟨rfl, rfl, hclear, fun _ ↦ ⟨rfl, rfl⟩, ?_, rfl, rfl⟩
    unfold Connection.connect frameLimits
    rw [h.frames]
  obtain ⟨hanswers, hend⟩ := answers_agree_of_forall (Connection.call_agree h) hstands calls
  exact ⟨hanswers, hend.server⟩

/-- Data that arrives byte by byte. -/
def Transfer.bytewise (data : Bytes) : Transfer data where
  chunks := data.map ([·])
  whole := by
    induction data with
    | nil => rfl
    | cons byte data ih => exact congrArg (byte :: ·) ih
  read := by simp

/-- A question, a request of no opcode, an orderly shutdown, and a question behind it. -/
def sampleRequests : List Frame :=
  [{ opcode := 2, requestId := 7 }, { opcode := 99, requestId := 8 }, { opcode := 28 },
    { opcode := 2 }]

/-- The requests as calls. -/
def sampleCalls : List Call := sampleRequests.map fun request ↦
  { request, circumstances := { now := fun _ ↦ 0 }, up := .bytewise, down := .bytewise }

/-- Reports that are refused. -/
def refusedReports : Reports where
  read _ _ := .error peerClosed
  revalidation _ _ := .error peerClosed

theorem calls_answered_as_dispatched_sample :
    (answers (Connection.call {} refusedReports {}) sampleCalls
        (.connect {} {} { fabric := run {} [] })).1 =
      (answers (Line.call {} refusedReports) sampleCalls { server := { fabric := run {} [] } }).1 :=
  (calls_answered_as_dispatched ⟨rfl, rfl, by decide⟩
    (fun id entry hentry ↦ by simp at hentry) sampleCalls).1

/-! ## Pipelined requests -/

/-- The frames that answer requests sent behind one another. -/
def ServerEnd.responses (c : FabricConfig) (reports : Reports) (env : Nat → Circumstances)
    (k : ServerEnd) : List Frame → List Frame
  | [] => []
  | request :: requests =>
    let response := (respond c reports ((env k.handled).arrival request) k.server).1
    if k.reading = true ∧ response.payload.length ≤ c.bounds.maxFrameBytes.toNat then
      response :: responses c reports env (answer c reports env k request) requests
    else []

/-- A frame answers a request. -/
def Corresponds (request response : Frame) : Prop :=
  response.opcode = request.opcode ∧ response.requestId = request.requestId

/-- What is answered corresponds to the request, also where it is an error. -/
theorem respond_corresponds {s : Server} (h : s.FlagsClear) (a : Arrival) :
    Corresponds a.request (respond c reports a s).1 ∧ (respond c reports a s).2.FlagsClear := by
  have hkept := @Server.FlagsClear.handle c reports _ h a
  unfold respond
  cases hexec : (handleRequest c reports a).exec s with
  | mk r t =>
    rw [hexec] at hkept
    cases r with
    | ok response =>
      have hanswers := handleRequest_answers h hexec
      exact ⟨⟨hanswers.opcode, hanswers.requestId⟩, hkept⟩
    | error e => exact ⟨⟨rfl, rfl⟩, hkept⟩

/-- The answers to requests sent behind one another are sent in their order. -/
theorem ServerEnd.sent_answerAll (h : c.bounds.validate = .ok ()) (requests : List Frame)
    {k : ServerEnd} (hclear : k.server.FlagsClear) :
    (answerAll c reports env k requests).sent =
        k.sent ++ FrameDecoder.stream (responses c reports env k requests) ∧
      (∀ response ∈ responses c reports env k requests,
        FrameDecoder.Sendable (frameLimits c.bounds) response) ∧
      List.Forall₂ Corresponds (requests.take (responses c reports env k requests).length)
        (responses c reports env k requests) := by
  induction requests generalizing k with
  | nil => simp [responses]
  | cons request requests ih =>
    rw [answerAll_cons]
    cases hreading : k.reading with
    | false =>
      have hnone : responses c reports env k (request :: requests) = [] := by
        simp [responses, hreading]
      rw [hnone, if_neg Bool.false_ne_true, answerAll_ended hreading]
      simp
    | true =>
      obtain ⟨hcorresponds, hkept⟩ := @respond_corresponds c reports _ hclear
        ((env k.handled).arrival request)
      cases hrespond : respond c reports ((env k.handled).arrival request) k.server with
      | mk response t =>
        rw [hrespond] at hcorresponds hkept
        have hanswer := answer_eq h hrespond
        rw [if_pos rfl]
        by_cases hlength : response.payload.length ≤ c.bounds.maxFrameBytes.toNat
        · have hsome : responses c reports env k (request :: requests) =
              response :: responses c reports env (answer c reports env k request) requests := by
            simp only [responses, hrespond]
            rw [if_pos ⟨hreading, hlength⟩]
          rw [if_pos hlength] at hanswer
          obtain ⟨hsent, hsendable, hordered⟩ :=
            ih (k := answer c reports env k request) (by rw [hanswer]; exact hkept)
          rw [hsome, List.length_cons, List.take_succ_cons]
          refine ⟨?_, List.forall_mem_cons.mpr ⟨sendable_of_le h hlength, hsendable⟩,
            .cons hcorresponds hordered⟩
          rw [hsent, FrameDecoder.stream_cons, ← List.append_assoc]
          congr 1
          rw [hanswer]
        · have hnone : responses c reports env k (request :: requests) = [] := by
            simp only [responses, hrespond]
            rw [if_neg fun hboth ↦ hlength hboth.2]
          rw [if_neg hlength] at hanswer
          rw [hnone, hanswer, answerAll_ended rfl]
          simp

/-- **Pipelined requests are answered in order**: however the stream of some requests arrives at the
server, they are handled one behind the other, and however what it sends arrives at the client, the
client receives their answers in the order of the requests, with nothing left over. -/
theorem pipelined_in_order (h : Fitting c b) {server : Server} (hclear : server.FlagsClear)
    {requests : List Frame}
    (hrequests : ∀ request ∈ requests, request.payload.length ≤ c.bounds.maxFrameBytes.toNat)
    (up : Transfer (FrameDecoder.stream requests)) {served : ServerEnd}
    (hserved : served = (ServerEnd.handleConnection c reports env up.chunks
      { limits := frameLimits c.bounds } { server }).2) (down : Transfer served.sent) :
    served = ServerEnd.answerAll c reports env { server } requests ∧
      ∃ responses d, FrameDecoder.receive down.chunks { limits := frameLimits b } =
          .ok (responses, d) ∧ d.pending = [] ∧
        responses = ServerEnd.responses c reports env { server } requests ∧
        List.Forall₂ Corresponds (requests.take responses.length) responses := by
  have hlimits : frameLimits b = frameLimits c.bounds := by
    unfold frameLimits
    rw [h.frames]
  have hsendable : ∀ request ∈ requests,
      FrameDecoder.Sendable (frameLimits c.bounds) request := fun request hmem ↦
    sendable_of_le h.valid (hrequests request hmem)
  obtain ⟨d, hreceive, -, -⟩ := FrameDecoder.receive_whole (d := { limits := frameLimits c.bounds })
    hsendable rfl up.whole
  have hall := (@ServerEnd.handleConnection_eq c reports env _ _ { server } _ _ hreceive).1
  rw [← hserved] at hall
  obtain ⟨hsent, hfits, hordered⟩ := @ServerEnd.sent_answerAll c reports env h.valid requests
    { server } hclear
  rw [← hall, List.nil_append] at hsent
  obtain ⟨d', hresponses, -, hidle⟩ := FrameDecoder.receive_whole
    (d := { limits := frameLimits b }) (by rw [hlimits]; exact hfits) rfl (down.whole.trans hsent)
  exact ⟨hall, _, d', hresponses, hidle, rfl, hordered⟩

/-- The sample requests, sent behind one another. -/
theorem pipelined_in_order_sample :
    let served := (ServerEnd.handleConnection {} refusedReports (fun _ ↦ { now := fun _ ↦ 0 })
      (Transfer.bytewise (FrameDecoder.stream sampleRequests)).chunks { limits := frameLimits {} }
      { server := { fabric := run {} [] } }).2
    served = ServerEnd.answerAll {} refusedReports (fun _ ↦ { now := fun _ ↦ 0 })
      { server := { fabric := run {} [] } } sampleRequests :=
  (@pipelined_in_order {} refusedReports (fun _ ↦ { now := fun _ ↦ 0 }) {}
    ⟨rfl, rfl, by decide⟩ _ (fun id entry hentry ↦ by simp at hentry) sampleRequests (by decide)
    (.bytewise _) _ rfl (.bytewise _)).1

end Service

end OffloadFabric
