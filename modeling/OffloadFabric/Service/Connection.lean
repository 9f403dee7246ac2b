import OffloadFabric.Service.Decoder
import OffloadFabric.Service.Server

/-!
# Connections

Both ends of a connection: `Server::Impl::handle_connection` (`src/service.cpp:476-586`), which
answers the requests of a stream one after another, and `Client` (`src/service.cpp:1389-1484`),
which waits for the answer to each request it sends.
-/

namespace OffloadFabric

open Lib Lib.Fallible

namespace Service

/-! ## Error payloads -/

/-- `kFlagError`, `src/service.cpp:24`. -/
def flagError : UInt16 := 1

/-- The error as its payload carries it: its detail is cut to its bound. -/
def carried (b : Bounds) (e : Error) : Error :=
  ⟨e.code, Bytes.text ((ascii e.detail).take b.maxReasonDetailBytes.toNat)⟩

/-- `encode_error_payload`, `src/service.cpp:279-294`: nothing where the writer refuses. -/
def encodeErrorPayload (b : Bounds) (e : Error) : Bytes :=
  let written := Writer.encode (do
    Writer.reasonCode e.code
    Writer.text ((ascii e.detail).take b.maxReasonDetailBytes.toNat))
    (b.maxReasonDetailBytes + 64).toNat
  match written with
  | .ok payload => payload
  | .error _ => []

/-- `decode_error_payload`, `src/service.cpp:296-313`; what stands behind the detail is not
read. -/
def decodeErrorPayload (b : Bounds) (payload : Bytes) : Result Error :=
  Reader.decode (do
    let code ← Reader.reasonCode "error payload carries an unknown reason code"
    let detail ← Reader.text
    return ⟨code, Bytes.text detail⟩) b.maxTextBytes.toNat payload

/-! ## The server's end -/

/-- What the handling of a request reads beside the request. -/
structure Circumstances where
  now : ClockReadings
  cancel : CancelToken := .never
  faults : List Fault := []

/-- The request that arrives under the circumstances. -/
def Circumstances.arrival (k : Circumstances) (request : Frame) : Arrival :=
  { request, now := k.now, cancel := k.cancel, faults := k.faults }

/-- The frame a request is answered with, `src/service.cpp:526-542`. -/
def respond (c : FabricConfig) (reports : Reports) (a : Arrival) (s : Server) : Frame × Server :=
  match (handleRequest c reports a).exec s with
  | (.ok response, s) => (response, s)
  | (.error e, s) =>
      ({ a.request with flags := flagError, payload := encodeErrorPayload c.bounds e }, s)

/-- The server's end of a connection, beside its decoder: what it has sent, how many requests it
has handled, and whether it goes on reading. -/
structure ServerEnd where
  server : Server
  sent : Bytes := []
  handled : Nat := 0
  reading : Bool := true

/-- The limits of either end, `src/service.cpp:1248,1415`. -/
def frameLimits (b : Bounds) : FrameLimits := ⟨b.maxFrameBytes⟩

namespace ServerEnd

variable (c : FabricConfig) (reports : Reports) (env : Nat → Circumstances)

/-- One request, `src/service.cpp:526-565`: an answer that cannot be sent and an orderly shutdown
end the connection. -/
def answer (k : ServerEnd) (request : Frame) : ServerEnd :=
  let (response, server) := respond c reports ((env k.handled).arrival request) k.server
  match encodeFrame response (frameLimits c.bounds) with
  | .error _ => { k with server, handled := k.handled + 1, reading := false }
  | .ok data =>
      { server
        sent := k.sent ++ data
        handled := k.handled + 1
        reading := request.opcode != Opcode.shutdown.code }

/-- The requests in the decoder, `src/service.cpp:510-566`, with a bound on the turns; a frame
that is refused ends the connection. -/
def answerFrames : Nat → FrameDecoder → ServerEnd → FrameDecoder × ServerEnd
  | 0, d, k => (d, k)
  | turns + 1, d, k =>
    match d.next with
    | .error _ => (d, { k with reading := false })
    | .ok none => (d, k)
    | .ok (some (request, d)) =>
        let k := answer c reports env k request
        if k.reading then answerFrames turns d k else (d, k)

/-- `handle_connection`, `src/service.cpp:476-586`, over the chunks it receives. -/
def handleConnection : List Bytes → FrameDecoder → ServerEnd → FrameDecoder × ServerEnd
  | [], d, k => (d, k)
  | chunk :: chunks, d, k =>
    if k.reading then
      let (d, k) := answerFrames c reports env ((d.feed chunk).pending.length + 1) (d.feed chunk) k
      handleConnection chunks d k
    else (d, k)

/-- Requests answered one after another, as long as the connection stands. -/
def answerAll (k : ServerEnd) (requests : List Frame) : ServerEnd :=
  requests.foldl (fun k request ↦ if k.reading then answer c reports env k request else k) k

end ServerEnd

/-! ## The client's end -/

/-- What ends a call when the peer has closed, `src/service.cpp:1453-1458`. -/
def peerClosed : Error := ⟨.peerClosed, "peer closed the connection"⟩

/-- `Client::receive`, `src/service.cpp:1437-1461`, from a peer that closes behind the chunks: the
frame and the decoder behind it, with the chunks that are still to arrive. -/
def receiveFrame : List Bytes → FrameDecoder → Result Frame × FrameDecoder × List Bytes
  | chunks, d =>
    match d.next with
    | .error e => (.error e, d, chunks)
    | .ok (some (frame, d)) => (.ok frame, d, chunks)
    | .ok none =>
      match chunks with
      | [] => (.error peerClosed, d, [])
      | chunk :: chunks => receiveFrame chunks (d.feed chunk)

/-- What a call makes of the frame it receives, `src/service.cpp:1468-1483`. -/
def correlate (b : Bounds) (request response : Frame) : Result Frame := do
  require (response.requestId = request.requestId)
    ⟨.requestDigestMismatch, "response does not correlate with the request identifier"⟩
  if response.flags &&& flagError ≠ 0 then
    let e ← decodeErrorPayload b response.payload
    throw e
  else return response

/-! ## Calls -/

/-- The chunks in which data arrives: each of at least one byte and no larger than the buffer of
the reader, `src/service.cpp:494-495,1451-1452`. -/
structure Transfer (data : Bytes) where
  chunks : List Bytes
  whole : chunks.flatten = data
  read : ∀ chunk ∈ chunks, chunk ≠ [] ∧ chunk.length ≤ 16384

/-- A connection with its two ends, and what was sent to the client and is still to arrive. -/
structure Connection where
  server : Server
  atServer : FrameDecoder
  atClient : FrameDecoder
  arriving : List Bytes := []
  standing : Bool := true

/-- A request to be sent, and what becomes of it on its way: the chunks in which it and its answer
arrive, and how the socket refuses to send when the peer has closed, where it does. -/
structure Call where
  request : Frame
  circumstances : Circumstances
  up : (data : Bytes) → Transfer data
  down : (data : Bytes) → Transfer data
  refusal : Option Error := none

theorem FrameDecoder.within_nil : 0 ≤ ([] : Bytes).length := Nat.zero_le 0

/-- `Client::connect`, `src/service.cpp:1401-1418`, to a server. -/
def Connection.connect (c : FabricConfig) (b : Bounds) (server : Server) : Connection where
  server := server
  atServer := { limits := frameLimits c.bounds, within := FrameDecoder.within_nil }
  atClient := { limits := frameLimits b, within := FrameDecoder.within_nil }

/-- `Client::call`, `src/service.cpp:1420-1435,1463-1484`, against `handle_connection`. -/
def Connection.call (c : FabricConfig) (reports : Reports) (b : Bounds) (i : Call) :
    Fallible Connection Error Frame := do
  let data ← liftExcept (encodeFrame i.request (frameLimits b))
  let k ← get
  if k.standing then
    let (atServer, served) := ServerEnd.handleConnection c reports (fun _ ↦ i.circumstances)
      (i.up data).chunks k.atServer { server := k.server }
    let (response, atClient, arriving) :=
      receiveFrame (k.arriving ++ (i.down served.sent).chunks) k.atClient
    set ({ server := served.server, atServer, atClient, arriving,
           standing := served.reading } : Connection)
    let response ← liftExcept response
    liftExcept (correlate b i.request response)
  else match i.refusal with
    | some e => throw e
    | none =>
      let (response, atClient, arriving) := receiveFrame k.arriving k.atClient
      set { k with atClient, arriving }
      let response ← liftExcept response
      liftExcept (correlate b i.request response)

/-! ## Requests of a stream -/

variable {c : FabricConfig} {reports : Reports} {env : Nat → Circumstances} {b : Bounds}
  {d d' : FrameDecoder} {k : ServerEnd} {requests : List Frame}

namespace ServerEnd

@[simp] theorem answerAll_nil (k : ServerEnd) : answerAll c reports env k [] = k := rfl

theorem answerAll_cons (k : ServerEnd) (request : Frame) (requests : List Frame) :
    answerAll c reports env k (request :: requests) =
      answerAll c reports env (if k.reading then answer c reports env k request else k) requests :=
  rfl

theorem answerAll_append (k : ServerEnd) (front later : List Frame) :
    answerAll c reports env k (front ++ later) =
      answerAll c reports env (answerAll c reports env k front) later :=
  List.foldl_append

/-- Nothing is answered on a connection that has ended. -/
theorem answerAll_ended (h : k.reading = false) (requests : List Frame) :
    answerAll c reports env k requests = k := by
  induction requests with
  | nil => rfl
  | cons request requests ih =>
    rw [answerAll_cons, h]
    exact ih

/-- Answering requests as they are taken is answering them behind one another. -/
theorem answerFrames_eq {turns : Nat} (hdrain : FrameDecoder.drain turns d = .ok (requests, d'))
    (hreading : k.reading = true) :
    (answerFrames c reports env turns d k).2 = answerAll c reports env k requests ∧
      ((answerAll c reports env k requests).reading = true →
        (answerFrames c reports env turns d k).1 = d') := by
  induction turns generalizing d k requests with
  | zero =>
    cases hdrain
    exact ⟨rfl, fun _ ↦ rfl⟩
  | succ turns ih =>
    rw [FrameDecoder.drain] at hdrain
    obtain ⟨found, hnext, hrest⟩ := bind_eq_ok.mp hdrain
    rw [answerFrames, hnext]
    cases found with
    | none =>
      cases hrest
      exact ⟨rfl, fun _ ↦ rfl⟩
    | some taken =>
      obtain ⟨request, behind⟩ := taken
      obtain ⟨⟨later, last⟩, hlater, hsplit⟩ := bind_eq_ok.mp hrest
      cases hsplit
      rw [answerAll_cons, if_pos hreading]
      simp only
      cases hanswer : (answer c reports env k request).reading with
      | true => exact ih hlater hanswer
      | false =>
        rw [answerAll_ended hanswer]
        exact ⟨rfl, fun h ↦ absurd (hanswer.symm.trans h) (by decide)⟩

/-- **A connection answers the requests of its stream one after another**, in whatever chunks they
arrive. -/
theorem handleConnection_eq {chunks : List Bytes}
    (hreceive : FrameDecoder.receive chunks d = .ok (requests, d')) :
    (handleConnection c reports env chunks d k).2 = answerAll c reports env k requests ∧
      ((answerAll c reports env k requests).reading = true →
        (handleConnection c reports env chunks d k).1 = d') := by
  induction chunks generalizing d k requests with
  | nil =>
    cases hreceive
    exact ⟨rfl, fun _ ↦ rfl⟩
  | cons chunk chunks ih =>
    rw [FrameDecoder.receive] at hreceive
    obtain ⟨⟨front, behind⟩, htake, hrest⟩ := bind_eq_ok.mp hreceive
    obtain ⟨⟨later, last⟩, hlater, hsplit⟩ := bind_eq_ok.mp hrest
    cases hsplit
    rw [handleConnection, answerAll_append]
    cases hreading : k.reading with
    | false =>
      rw [answerAll_ended hreading, answerAll_ended hreading]
      exact ⟨rfl, fun h ↦ absurd (hreading.symm.trans h) (by decide)⟩
    | true =>
      obtain ⟨hfront, hbehind⟩ := @answerFrames_eq c reports env _ _ _ _ _ htake hreading
      rw [if_pos rfl]
      simp only
      rw [hfront]
      cases hstands : (answerAll c reports env k front).reading with
      | true =>
        rw [hbehind hstands]
        exact ih hlater
      | false =>
        have hended : ∀ d : FrameDecoder, handleConnection c reports env chunks d
            (answerAll c reports env k front) = (d, answerAll c reports env k front) := by
          intro d
          cases chunks with
          | nil => rfl
          | cons chunk chunks =>
            rw [handleConnection, hstands]
            rfl
        rw [hended, answerAll_ended hstands]
        exact ⟨rfl, fun h ↦ absurd (hstands.symm.trans h) (by decide)⟩

end ServerEnd

end Service

end OffloadFabric
