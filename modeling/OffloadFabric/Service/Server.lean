import OffloadFabric.Fabric.Run
import OffloadFabric.Lib.Fifo
import OffloadFabric.Service.Frame

/-!
# The server

`Server::Impl::handle_request` (`src/service.cpp:588-1238`): a request is answered from the
response cache or handed to the runtime, and the answer of a successful change is cached.
-/

namespace OffloadFabric

open Lib Lib.Fallible Wire

namespace Service

/-- `Opcode`, `include/nof/service.hpp:22-51`. -/
inductive Opcode where
  | hello | ping | stats | registerFunction | ingestTopology | ingestCapabilities | ingestPolicy
  | ingestObservations | grantAuthority | withdrawAuthority | reportEffect | plan | apply | revoke
  | replace | reauthorize | revalidate | getAssignment | listAssignments | getScope
  | explainAssignment | explainRequest | stateDigest | export | recoveryReport | verifyInvariants
  | compact | shutdown
  deriving DecidableEq, Repr

namespace Opcode

/-- The number of an opcode, `include/nof/service.hpp:23-50`. -/
def code : Opcode → UInt16
  | .hello => 1
  | .ping => 2
  | .stats => 3
  | .registerFunction => 4
  | .ingestTopology => 5
  | .ingestCapabilities => 6
  | .ingestPolicy => 7
  | .ingestObservations => 8
  | .grantAuthority => 9
  | .withdrawAuthority => 10
  | .reportEffect => 11
  | .plan => 12
  | .apply => 13
  | .revoke => 14
  | .replace => 15
  | .reauthorize => 16
  | .revalidate => 17
  | .getAssignment => 18
  | .listAssignments => 19
  | .getScope => 20
  | .explainAssignment => 21
  | .explainRequest => 22
  | .stateDigest => 23
  | .export => 24
  | .recoveryReport => 25
  | .verifyInvariants => 26
  | .compact => 27
  | .shutdown => 28

/-- Every opcode, in the order of the numbers. -/
def all : List Opcode :=
  [.hello, .ping, .stats, .registerFunction, .ingestTopology, .ingestCapabilities, .ingestPolicy,
    .ingestObservations, .grantAuthority, .withdrawAuthority, .reportEffect, .plan, .apply,
    .revoke, .replace, .reauthorize, .revalidate, .getAssignment, .listAssignments, .getScope,
    .explainAssignment, .explainRequest, .stateDigest, .export, .recoveryReport,
    .verifyInvariants, .compact, .shutdown]

/-- The opcode a raw number names, `src/service.cpp:155-161`. -/
def ofCode? (raw : UInt16) : Option Opcode := all.find? fun opcode ↦ opcode.code == raw

@[simp] theorem ofCode?_code (opcode : Opcode) : ofCode? opcode.code = some opcode := by
  cases opcode <;> rfl

/-- The opcodes whose branch ends in `remember`, `src/service.cpp:697-985`. -/
def remembered : Opcode → Bool
  | .registerFunction | .ingestTopology | .ingestCapabilities | .ingestPolicy
  | .ingestObservations | .grantAuthority | .withdrawAuthority | .reportEffect | .apply
  | .revoke | .replace | .reauthorize => true
  | _ => false

end Opcode

/-- `CachedResponse`, `src/service.cpp:325-329`. -/
structure CachedResponse where
  requestDigest : Digest
  payload : Bytes
  flags : UInt16
  deriving DecidableEq

/-- `Server::Impl`, `src/service.cpp:333-365`, what the requests read and write of it. For the
record only it keeps the calls made to the runtime, by the opcode that made each, and whether the
front of an empty queue was read, which leaves the source undefined; nothing reads these two. -/
structure Server where
  fabric : Impl
  cache : Std.ExtTreeMap UInt64 CachedResponse := ∅
  cacheOrder : List UInt64 := []
  calls : List Opcode := []
  undefined : Bool := false

/-- A program over the server. -/
abbrev ServerM := Fallible Server Error

/-- A request that arrives, with the clock and the cancellation its handling reads and the faults
its durable calls meet. -/
structure Arrival where
  request : Frame
  now : ClockReadings
  cancel : CancelToken := .never
  faults : List Fault := []

/-- What the model leaves open: the answers of the opcodes that only render the runtime (3, 19 to
22 and 24 to 26), as what they read of the payload and then of the runtime, and the encoding of a
revalidation report. None of these is cached or changes anything. -/
structure Reports where
  read : Opcode → Bytes → Result (Impl → Result Bytes)
  revalidation : Arrival → Impl → Result Bytes

/-! ## The response cache -/

/-- What the digest of a request is taken over, `src/service.cpp:594-600`. -/
def digestInput (request : Frame) : Bytes := le 2 request.opcode.toNat ++ request.payload

/-- `digest_of`, `src/service.cpp:594-600`. -/
def requestDigest (request : Frame) : Digest := sha256 (digestInput request)

/-- The refusal of a reused identifier, `src/service.cpp:612-613`. -/
def reusedIdentifier : Error :=
  ⟨.duplicateDelivery, "request identifier was reused with a different payload"⟩

/-- The lookup, `src/service.cpp:601-615`. -/
def cachedResponse (request : Frame) : ServerM (Option Frame) := do
  let s ← get
  if request.requestId = 0 then return none
  else match s.cache[request.requestId]? with
    | none => return none
    | some entry =>
      if entry.requestDigest = requestDigest request then
        return some { request with flags := entry.flags, payload := entry.payload }
      else throw reusedIdentifier

/-- `remember`, `src/service.cpp:617-636`, of a cacheable response. -/
def remember (b : Bounds) (request : Frame) (payload : Bytes) (flags : UInt16) : ServerM Unit :=
  if request.requestId = 0 then pure ()
  else modify fun s ↦
    let cache := s.cache.insert request.requestId ⟨requestDigest request, payload, flags⟩
    let cacheOrder := s.cacheOrder ++ [request.requestId]
    match Fifo.evict b.maxIdempotencyEntries.toNat cacheOrder cache with
    | some (cacheOrder, cache) => { s with cache, cacheOrder }
    | none => { s with cache := ∅, cacheOrder := [], undefined := true }

/-! ## The branches -/

/-- A call to the runtime. -/
def onFabric {α : Type} (opcode : Opcode) (faults : List Fault) (x : FabricM α) : ServerM α := do
  let s ← get
  match x.exec (s.fabric.facing faults) with
  | (.ok a, fabric) =>
      set { s with fabric, calls := s.calls ++ [opcode] }
      return a
  | (.error e, fabric) =>
      set { s with fabric, calls := s.calls ++ [opcode] }
      throw e

/-- `require_consumed`, `src/service.cpp:80-85`. -/
def requireConsumed : Reader Unit := do
  let atEnd ← Reader.atEnd
  if atEnd then pure ()
  else throw ⟨.malformedInput, "request payload carries trailing bytes"⟩

/-- `decode_exact`, `src/service.cpp:66-78`. -/
def decodeExact {α : Type} (b : Bounds) (reader : Reader α) (payload : Bytes) : Result α :=
  Reader.decode (do
    let value ← reader
    requireConsumed
    return value) b.maxTextBytes.toNat payload

/-- The answer to a greeting, `src/service.cpp:638-667`. -/
def hello (b : Bounds) (payload : Bytes) : Result Bytes := do
  Reader.decode (do
    let version ← Reader.u16
    if version ≠ protocolVersion then
      throw ⟨.protocolVersionMismatch, "peer protocol version is not supported"⟩
    else requireConsumed) b.maxTextBytes.toNat payload
  Writer.encode (do
    Writer.text (ascii "Network Offload Fabric")
    Writer.text (ascii "1.0.0")
    Writer.u64 protocolVersion.toUInt64) 256

/-- A branch that hands what it decodes to the runtime and answers with nothing,
`src/service.cpp:697-806`. -/
def submitted {α : Type} (b : Bounds) (a : Arrival) (opcode : Opcode) (reader : Reader α)
    (x : α → FabricM Unit) : ServerM Bytes := do
  let value ← liftExcept (decodeExact b reader a.request.payload)
  onFabric opcode a.faults (x value)
  return []

/-- A branch that answers with the assignment the runtime returns, `src/service.cpp:807-985`. -/
def answered {α : Type} (b : Bounds) (a : Arrival) (opcode : Opcode) (reader : Reader α)
    (x : α → FabricM AssignmentRecord) : ServerM Bytes := do
  let value ← liftExcept (decodeExact b reader a.request.payload)
  let record ← onFabric opcode a.faults (x value)
  liftExcept ((encAssignment record).encode b.maxRequestBytes.toNat)

/-- A withdrawal, `src/service.cpp:785-801`. -/
def decWithdrawal : Reader (AuthorityId × ReasonCode) := do
  let authority ← Reader.token
  let reason ← Reader.reasonCode "withdrawal carries an unknown reason code"
  return (authority, reason)

/-- A placement to apply, `src/service.cpp:841-858`. -/
def decApplication (b : Bounds) (cancel : CancelToken) :
    Reader (PlacementRequest × ApplyOptions) := do
  let placement ← decPlacementRequest b
  let allowReplacement ← Reader.boolean
  return (placement, { requestId := placement.requestId, cancel, allowReplacement })

/-- A revocation, `src/service.cpp:872-901`. -/
def decRevocation (cancel : CancelToken) : Reader RevokeRequest := do
  let requestId ← Reader.token
  let assignment ← Reader.token
  let reason ← Reader.reasonCode "revocation carries an unknown reason code"
  let authority ← Reader.token
  return { requestId, assignment, reason, authority, cancel }

/-- A replacement, `src/service.cpp:915-936`. -/
def decReplacement (b : Bounds) (cancel : CancelToken) : Reader ReplaceRequest := do
  let requestId ← Reader.token
  let current ← Reader.token
  let placement ← decPlacementRequest b
  return { requestId, current, placement, cancel }

/-- A reauthorization, `src/service.cpp:950-971`. -/
def decReauthorization (cancel : CancelToken) : Reader ReauthorizeRequest := do
  let requestId ← Reader.token
  let assignment ← Reader.token
  let authority ← Reader.token
  return { requestId, assignment, authority, cancel }

/-- `Fabric::plan`, `src/fabric.cpp:3682-3691`. -/
def plan (c : FabricConfig) (request : PlacementRequest) (now : Micros) : FabricM PlanResult := do
  let m ← get
  check (m.running = true) ⟨.shuttingDown, "runtime is not running"⟩
  liftExcept (m.state.planLocked c.bounds request false now)

/-- `Fabric::get_assignment`, `src/fabric.cpp:4139-4147`. -/
def getAssignment (id : AssignmentId) : FabricM AssignmentRecord := do
  let m ← get
  found (m.state.assignments.find? id) ⟨.notFound, "assignment does not exist"⟩

/-- `compute_state_digest`, `src/fabric.cpp:913-920`. -/
def computeStateDigest (b : Bounds) (s : FabricState) : Digest :=
  match (encState s).encode b.maxCanonicalBytes.toNat with
  | .ok data => sha256 data
  | .error _ => .zero

/-- The switch over the opcodes, `src/service.cpp:637-1235`: the payload of the response. -/
def perform (c : FabricConfig) (reports : Reports) (a : Arrival) : Opcode → ServerM Bytes
  | .hello => liftExcept (hello c.bounds a.request.payload)
  | .ping => do
      liftExcept (decodeExact c.bounds (pure ()) a.request.payload)
      let epoch ← onFabric .ping a.faults do
        let m ← get
        return m.state.epoch
      liftExcept (Writer.encode (do Writer.u64 epoch.counter; Writer.token epoch.boot) 128)
  | .registerFunction =>
      submitted c.bounds a .registerFunction (decFunction c.bounds) (Fabric.registerFunction c)
  | .ingestTopology =>
      submitted c.bounds a .ingestTopology (decTopology c.bounds)
        (Fabric.ingestTopology c · (a.now 0))
  | .ingestCapabilities =>
      submitted c.bounds a .ingestCapabilities (decCapabilityReport c.bounds)
        (Fabric.ingestCapabilities c · (a.now 0))
  | .ingestPolicy =>
      submitted c.bounds a .ingestPolicy (decPolicy c.bounds) (Fabric.ingestPolicy c · (a.now 0))
  | .ingestObservations =>
      submitted c.bounds a .ingestObservations (decObservationReport c.bounds)
        (Fabric.ingestObservations c · (a.now 0))
  | .grantAuthority =>
      submitted c.bounds a .grantAuthority decAuthority (Fabric.grantAuthority c)
  | .withdrawAuthority =>
      submitted c.bounds a .withdrawAuthority decWithdrawal fun withdrawal ↦
        Fabric.withdrawAuthority c withdrawal.1 withdrawal.2 a.now
  | .reportEffect =>
      answered c.bounds a .reportEffect decEffectReport (Fabric.reportEffect c · a.now)
  | .plan => do
      let placement ← liftExcept
        (decodeExact c.bounds (decPlacementRequest c.bounds) a.request.payload)
      let result ← onFabric .plan a.faults (plan c placement (a.now 0))
      liftExcept ((encPlanResult result).encode c.bounds.maxRequestBytes.toNat)
  | .apply =>
      answered c.bounds a .apply (decApplication c.bounds a.cancel) fun application ↦
        Fabric.apply c application.1 application.2 a.now
  | .revoke =>
      answered c.bounds a .revoke (decRevocation a.cancel) (Fabric.revoke c · a.now)
  | .replace =>
      answered c.bounds a .replace (decReplacement c.bounds a.cancel) (Fabric.replace c · a.now)
  | .reauthorize =>
      answered c.bounds a .reauthorize (decReauthorization a.cancel) (Fabric.reauthorize c · a.now)
  | .revalidate => do
      liftExcept (decodeExact c.bounds (pure ()) a.request.payload)
      let s ← get
      let _ ← onFabric .revalidate a.faults (Fabric.revalidate c a.cancel (a.now 0))
      liftExcept (reports.revalidation a s.fabric)
  | .getAssignment =>
      answered c.bounds a .getAssignment Reader.token getAssignment
  | .stateDigest => do
      liftExcept (decodeExact c.bounds (pure ()) a.request.payload)
      let digest ← onFabric .stateDigest a.faults do
        let m ← get
        return computeStateDigest c.bounds m.state
      liftExcept ((Writer.text digest.hex).encode (digest.hex.length + 16))
  | .compact =>
      submitted c.bounds a .compact (pure ()) fun _ ↦ Fabric.compact c
  | .shutdown => do
      liftExcept (decodeExact c.bounds (pure ()) a.request.payload)
      return []
  | opcode => do
      let call ← liftExcept (reports.read opcode a.request.payload)
      onFabric opcode a.faults do
        let m ← get
        liftExcept (call m)

/-- `handle_request`, `src/service.cpp:588-1238`. -/
def handleRequest (c : FabricConfig) (reports : Reports) (a : Arrival) : ServerM Frame := do
  match ← cachedResponse a.request with
  | some response => return response
  | none =>
    match Opcode.ofCode? a.request.opcode with
    | none => throw ⟨.unsupportedOpcode, "opcode is not implemented"⟩
    | some opcode => do
      let payload ← perform c reports a opcode
      if opcode.remembered then remember c.bounds a.request payload 0
      return { a.request with flags := 0, payload }

/-- The server behind one request. -/
def serve (c : FabricConfig) (reports : Reports) (s : Server) (a : Arrival) : Server :=
  ((handleRequest c reports a).exec s).2

/-- The server behind requests handled one after another. -/
def serveAll (c : FabricConfig) (reports : Reports) (s : Server) (arrivals : List Arrival) :
    Server :=
  arrivals.foldl (serve c reports) s

end Service

end OffloadFabric
