import OffloadFabric.Fabric.Run
import OffloadFabric.Fabric.Evidence

/-!
# What an operation changes

Every operation is a sequence of changes of a few kinds, each with the decision that led to it.
Invariants are proved of the changes and hold of the operations and of whole runs. This module
names the decisions and the changes; `Fabric.Course` shows that the operations follow them.
-/

namespace OffloadFabric

open Lib Wire

/-- The records of accepted evidence. -/
def RecordType.isEvidence : RecordType → Bool
  | .functionRegistered | .topologyIngested | .capabilityIngested | .policyIngested
  | .observationsIngested | .authorityGranted | .authorityWithdrawn => true
  | _ => false

/-- What a durable call may leave of the log without its record: the same recovery, or that of
the state it compacted. -/
inductive Settled (b : Bounds) (s : FabricState) (l l' : Log) : Prop
  | same (h : l.Same l')
  | compacted (envelope : Bytes) (h : Fabric.snapshotEnvelope b s = .ok envelope)
      (h' : l'.Installed envelope)

/-- The log after a commit: settled, with the record at its end. -/
def Recorded (b : Bounds) (s : FabricState) (type : RecordType) (payload : Bytes)
    (l l' : Log) : Prop :=
  ∃ base, Settled b s l base ∧ l'.snapshot = base.snapshot ∧
    l'.records = base.records ++ [(type, payload)]

/-- The log after a commit of the runtime, which without a store commits nothing. -/
def Commits (c : FabricConfig) (m : Impl) (type : RecordType) (payload : Bytes) (l' : Log) :
    Prop :=
  if m.storeOpen then Recorded c.bounds m.state type payload m.log l' else l' = m.log

namespace FabricState

/-- What an issue function returns and the counter it moves, `src/fabric.cpp:103-140`. -/
inductive Issue (s : FabricState) : Issued → FabricState → Prop
  | assignment (ordinal : UInt64) (id : AssignmentId)
      (h : checkedAdd s.nextAssignmentOrdinal 1 = some ordinal)
      (hid : Token.parse (ascii "as-" ++ hex64 ordinal) = .ok id) :
      Issue s (.assignment id) { s with nextAssignmentOrdinal := ordinal }
  | lease (value : UInt64) (h : checkedAdd s.nextLease 1 = some value) :
      Issue s (.lease value) { s with nextLease := value }
  | attempt (value : UInt64) (h : checkedAdd s.nextAttempt 1 = some value) :
      Issue s (.attempt value) { s with nextAttempt := value }
  | fence (sequence : UInt64) (h : checkedAdd s.nextFenceSequence 1 = some sequence) :
      Issue s (.fence ⟨s.epoch.counter, sequence⟩) { s with nextFenceSequence := sequence }

theorem issueAssignmentId_ok {s t : FabricState} {id : AssignmentId}
    (h : s.issueAssignmentId = .ok (id, t)) : Issue s (.assignment id) t := by
  unfold issueAssignmentId at h
  split at h
  · cases h
  · next ordinal hadd =>
      obtain ⟨id', hid, heq⟩ := bind_eq_ok.mp h
      cases heq
      exact .assignment ordinal id hadd hid

theorem issueLease_ok {s t : FabricState} {lease : LeaseId}
    (h : s.issueLease = .ok (lease, t)) : Issue s (.lease lease) t := by
  unfold issueLease at h
  split at h
  · cases h
  · next value hadd =>
      cases h
      exact .lease lease hadd

theorem issueAttempt_ok {s t : FabricState} {attempt : AttemptId}
    (h : s.issueAttempt = .ok (attempt, t)) : Issue s (.attempt attempt) t := by
  unfold issueAttempt at h
  split at h
  · cases h
  · next value hadd =>
      cases h
      exact .attempt attempt hadd

theorem issueFence_ok {s t : FabricState} {fence : FencingToken}
    (h : s.issueFence = .ok (fence, t)) : Issue s (.fence fence) t := by
  unfold issueFence at h
  split at h
  · cases h
  · next sequence hadd =>
      cases h
      exact .fence sequence hadd

/-- The identity of a new assignment: what `authorize_locked` issues in order,
`src/fabric.cpp:3541-3552`. -/
structure Identity where
  id : AssignmentId
  lease : LeaseId
  attempt : AttemptId
  fence : FencingToken

/-- A state issues an identity and becomes another. -/
def Issues (s : FabricState) (i : Identity) (t : FabricState) : Prop :=
  ∃ s₁ s₂ s₃, Issue s (.assignment i.id) s₁ ∧ Issue s₁ (.lease i.lease) s₂ ∧
    Issue s₂ (.attempt i.attempt) s₃ ∧ Issue s₃ (.fence i.fence) t

/-- A state issues what a re-authorization renews and becomes another,
`src/fabric.cpp:3935-3947`. -/
def Renews (s : FabricState) (lease : LeaseId) (attempt : AttemptId) (fence : FencingToken)
    (t : FabricState) : Prop :=
  ∃ s₁ s₂, Issue s (.lease lease) s₁ ∧ Issue s₁ (.attempt attempt) s₂ ∧
    Issue s₂ (.fence fence) t

/-- The state once a new assignment's predecessor is superseded, `src/fabric.cpp:3554-3574`. -/
def superseding (s : FabricState) (b : Bounds) (replacing : AssignmentId) (k : ExclusivityKey)
    (now : Micros) : FabricState :=
  if replacing = .empty then s
  else match s.assignments.find? replacing with
    | none => s
    | some previous =>
        (s.insertAssignment (previous.enter b .superseded .superseded now)).pushReassignment b k
          now

/-- The state with an assignment stored and its request answered. -/
def storing (s : FabricState) (b : Bounds) (v : RecordedAssignment) (response : Bytes)
    (now : Micros) : FabricState :=
  (s.insertAssignment v.record).recordIdempotency b v.requestId
    ⟨v.requestFingerprint, .ok, response, now⟩

@[simp] theorem storing_assignments (s : FabricState) (b : Bounds) (v : RecordedAssignment)
    (response : Bytes) (now : Micros) :
    (s.storing b v response now).assignments = s.assignments.insert v.record := by
  unfold storing
  rw [recordIdempotency_eq]
  exact insertAssignment_assignments s v.record

theorem sameEvidence_storing (s : FabricState) (b : Bounds) (v : RecordedAssignment)
    (response : Bytes) (now : Micros) : SameEvidence s (s.storing b v response now) :=
  (sameEvidence_insertAssignment s v.record).trans (sameEvidence_recordIdempotency _ _ _ _)

end FabricState

namespace Op

/-- The evidence an operation delivers. -/
def delivery (c : FabricConfig) (now : ClockReadings) (s : FabricState) :
    Op → Result (Option Delivery)
  | registerFunction f => s.functionDelivery c.bounds f
  | ingestTopology t => s.topologyDelivery c.bounds t
  | ingestCapabilities report => s.capabilityDelivery c.bounds report
  | ingestPolicy p => s.policyDelivery c.bounds p
  | ingestObservations report => s.observationDelivery c.bounds report
  | grantAuthority g => s.grantDelivery c.bounds g
  | withdrawAuthority id reason => s.withdrawalDelivery id reason (now 0)
  | _ => .ok none

/-- A delivery that an operation accepts: what was checked of it and what it makes of the
state. -/
inductive Accepts (c : FabricConfig) (now : ClockReadings) (s : FabricState) :
    Op → Delivery → Prop
  | function {f : FunctionDescriptor} :
      Accepts c now s (registerFunction f) ⟨.functionRegistered, encFunction f,
        { s with functions := s.functions.insert f }⟩
  | topology {t : TopologySnapshot} {digest : Digest}
      (hvalid : validateTopology t c.bounds = .ok ())
      (hdigest : digestWith (encTopology t) c.bounds.maxCanonicalBytes.toNat = .ok digest)
      (haccept : s.acceptEvidence t.provenance.source .topology t.provenance.sequence digest =
        .ok false) :
      Accepts c now s (ingestTopology t) ⟨.topologyIngested, encTopology t,
        { s with topology := some t, topologyDigest := digest }.markSource t.provenance.source
          .topology t.provenance.sequence digest⟩
  | capabilities {report : CapabilityReport} {digest : Digest}
      (hvalid : validateCapabilityReport report c.bounds = .ok ())
      (hdigest : digestWith (encCapabilityReport report) c.bounds.maxCanonicalBytes.toNat =
        .ok digest)
      (haccept : s.acceptEvidence report.provenance.source .capability
        report.provenance.sequence digest = .ok false) :
      Accepts c now s (ingestCapabilities report) ⟨.capabilityIngested,
        encCapabilityReport report,
        { s with capabilities := report.records.foldl Table.insert s.capabilities }.markSource
          report.provenance.source .capability report.provenance.sequence digest⟩
  | policy {p : PolicySnapshot} {digest : Digest}
      (hvalid : validatePolicySnapshot p c.bounds = .ok ())
      (hdigest : digestWith (encPolicy p) c.bounds.maxCanonicalBytes.toNat = .ok digest)
      (haccept : s.acceptEvidence p.provenance.source .policy p.provenance.sequence digest =
        .ok false) :
      Accepts c now s (ingestPolicy p) ⟨.policyIngested, encPolicy p,
        { s with policy := some p, policyDigest := digest }.markSource p.provenance.source
          .policy p.provenance.sequence digest⟩
  | observations {report : ObservationReport} {digest : Digest}
      (hvalid : validateObservationReport report c.bounds = .ok ())
      (hdigest : digestWith (encObservationReport report) c.bounds.maxCanonicalBytes.toNat =
        .ok digest)
      (haccept : s.acceptEvidence report.provenance.source .observation
        report.provenance.sequence digest = .ok false) :
      Accepts c now s (ingestObservations report) ⟨.observationsIngested,
        encObservationReport report,
        { s with observations := report.devices.foldl Table.insert s.observations }.markSource
          report.provenance.source .observation report.provenance.sequence digest⟩
  | grant {g : AuthorityGrant} {digest : Digest}
      (hvalid : validateAuthorityGrant g c.bounds = .ok ())
      (hdigest : digestWith (encAuthority g) c.bounds.maxCanonicalBytes.toNat = .ok digest)
      (haccept : s.acceptEvidence g.provenance.source .authority g.provenance.sequence digest =
        .ok false)
      (hnew : s.authority.find? g.id = none) :
      Accepts c now s (grantAuthority g) ⟨.authorityGranted, encAuthority g,
        { s with authority := s.authority.insert g }.markSource g.provenance.source .authority
          g.provenance.sequence digest⟩
  | withdrawal {id : AuthorityId} {reason : ReasonCode} {g : AuthorityGrant}
      (hfind : s.authority.find? id = some g) (hheld : g.revoked = false) :
      Accepts c now s (withdrawAuthority id reason) ⟨.authorityWithdrawn,
        encRecordedWithdrawal { authority := id, reason, atTime := now 0 },
        { s with authority := s.authority.insert { g with revoked := true } }⟩

theorem delivery_accepts {c : FabricConfig} {now : ClockReadings} {s : FabricState} {op : Op}
    {d : Delivery} (h : op.delivery c now s = .ok (some d)) : op.Accepts c now s d := by
  cases op with
  | registerFunction f =>
      obtain ⟨_, -, h⟩ := bind_eq_ok.mp h
      obtain ⟨_, -, h⟩ := bind_eq_ok.mp h
      obtain ⟨_, -, h⟩ := bind_eq_ok.mp h
      split at h <;> cases h
      exact .function
  | ingestTopology t =>
      obtain ⟨_, hvalid, h⟩ := bind_eq_ok.mp h
      obtain ⟨digest, hdigest, h⟩ := bind_eq_ok.mp h
      obtain ⟨duplicate, haccept, h⟩ := bind_eq_ok.mp h
      cases duplicate with
      | true => cases h
      | false =>
          obtain ⟨_, -, h⟩ := bind_eq_ok.mp h
          cases h
          exact .topology hvalid hdigest haccept
  | ingestCapabilities report =>
      obtain ⟨_, hvalid, h⟩ := bind_eq_ok.mp h
      obtain ⟨digest, hdigest, h⟩ := bind_eq_ok.mp h
      obtain ⟨duplicate, haccept, h⟩ := bind_eq_ok.mp h
      cases duplicate with
      | true => cases h
      | false =>
          obtain ⟨_, -, h⟩ := bind_eq_ok.mp h
          cases h
          exact .capabilities hvalid hdigest haccept
  | ingestPolicy p =>
      obtain ⟨_, hvalid, h⟩ := bind_eq_ok.mp h
      obtain ⟨digest, hdigest, h⟩ := bind_eq_ok.mp h
      obtain ⟨duplicate, haccept, h⟩ := bind_eq_ok.mp h
      cases duplicate with
      | true => cases h
      | false =>
          obtain ⟨_, -, h⟩ := bind_eq_ok.mp h
          cases h
          exact .policy hvalid hdigest haccept
  | ingestObservations report =>
      obtain ⟨_, hvalid, h⟩ := bind_eq_ok.mp h
      obtain ⟨_, -, h⟩ := bind_eq_ok.mp h
      obtain ⟨_, -, h⟩ := bind_eq_ok.mp h
      obtain ⟨_, -, h⟩ := bind_eq_ok.mp h
      obtain ⟨digest, hdigest, h⟩ := bind_eq_ok.mp h
      obtain ⟨duplicate, haccept, h⟩ := bind_eq_ok.mp h
      cases duplicate with
      | true => cases h
      | false =>
          cases h
          exact .observations hvalid hdigest haccept
  | grantAuthority g =>
      obtain ⟨_, hvalid, h⟩ := bind_eq_ok.mp h
      obtain ⟨_, -, h⟩ := bind_eq_ok.mp h
      obtain ⟨_, -, h⟩ := bind_eq_ok.mp h
      obtain ⟨digest, hdigest, h⟩ := bind_eq_ok.mp h
      obtain ⟨duplicate, haccept, h⟩ := bind_eq_ok.mp h
      cases duplicate with
      | true => cases h
      | false =>
          simp only [Bool.false_eq_true, if_false] at h
          split at h
          · obtain ⟨_, -, h⟩ := bind_eq_ok.mp h
            cases h
          · next hnew =>
              obtain ⟨_, -, h⟩ := bind_eq_ok.mp h
              cases h
              exact .grant hvalid hdigest haccept hnew
  | withdrawAuthority id reason =>
      obtain ⟨_, -, h⟩ := bind_eq_ok.mp h
      obtain ⟨g, hfind, h⟩ := bind_eq_ok.mp h
      split at h
      · cases h
      · next hheld =>
          cases h
          exact .withdrawal (present_eq_ok.mp hfind) (by simpa using hheld)
  | _ => cases h

/-- A delivery is recorded as evidence and changes the evidence and what is known of its
sources, nothing else. -/
theorem delivery_frame {c : FabricConfig} {now : ClockReadings} {s : FabricState} {op : Op}
    {d : Delivery} (h : op.delivery c now s = .ok (some d)) :
    d.type.isEvidence = true ∧ d.next = { s with
      functions := d.next.functions
      observations := d.next.observations
      capabilities := d.next.capabilities
      topology := d.next.topology
      topologyDigest := d.next.topologyDigest
      policy := d.next.policy
      policyDigest := d.next.policyDigest
      authority := d.next.authority
      sources := d.next.sources } := by
  cases delivery_accepts h <;> exact ⟨rfl, rfl⟩

/-- A delivery changes the evidence and what is known of its sources, nothing else. -/
theorem delivery_next {c : FabricConfig} {now : ClockReadings} {s : FabricState} {op : Op}
    {d : Delivery} (h : op.delivery c now s = .ok (some d)) :
    d.next = { s with
      functions := d.next.functions
      observations := d.next.observations
      capabilities := d.next.capabilities
      topology := d.next.topology
      topologyDigest := d.next.topologyDigest
      policy := d.next.policy
      policyDigest := d.next.policyDigest
      authority := d.next.authority
      sources := d.next.sources } := (delivery_frame h).2

/-- The evidence and the clock reading an operation revalidates every assignment with. -/
def revalidation (c : FabricConfig) (now : ClockReadings) (s : FabricState) (op : Op) :
    Option (FabricState × Micros) :=
  match op with
  | ingestTopology _ | ingestCapabilities _ | ingestPolicy _ | ingestObservations _ =>
      match op.delivery c now s with
      | .ok (some d) => some (d.next, now 0)
      | _ => none
  | withdrawAuthority _ _ =>
      match op.delivery c now s with
      | .ok (some d) => some (d.next, now 1)
      | _ => none
  | revalidate _ => some (s, now 0)
  | _ => none

/-- The plan a placement asks to authorize, the options it does so under and the clock reading
of the decision. -/
def placement (c : FabricConfig) (now : ClockReadings) (s : FabricState)
    (request : PlacementRequest) (options : ApplyOptions) :
    Option (AssignmentPlan × ApplyOptions × Micros) :=
  match s.planLocked c.bounds request (options.cancel 1) (now 1) with
  | .ok planned =>
      if planned.decision = .refuse then none
      else some (planned.plan, Fabric.effectiveOptions request options planned, now 2)
  | .error _ => none

/-- The plan an operation asks to authorize. -/
def authorization (c : FabricConfig) (now : ClockReadings) (s : FabricState) :
    Op → Option (AssignmentPlan × ApplyOptions × Micros)
  | apply request options => placement c now s request options
  | applyPlan planned options =>
      some (planned.plan, Fabric.planOptions options planned, now 0)
  | replace request =>
      match s.assignments.find? request.current with
      | some current => placement c now s (Fabric.replacementPlacement request current)
          (Fabric.replacementOptions request)
      | none => none
  | _ => none

end Op

/-- What an authorized plan rests on: the state the checks accepted it in. -/
structure Authorized (c : FabricConfig) (now : ClockReadings) (s : FabricState) (op : Op)
    (p : AssignmentPlan) (options : ApplyOptions) (auth : Authorization) (t : Micros) : Prop where
  asked : op.authorization c now s = some (p, options, t)
  checked : s.authorizeChecks c.bounds p options.allowReplacement t = .ok auth

/-- The fingerprint an authorization stores its answer under, `src/fabric.cpp:3576-3580`. -/
def Authorization.fingerprint (auth : Authorization) (c : FabricConfig) (options : ApplyOptions) :
    Digest :=
  if options.requestId = .empty then .zero else fingerprintOf c.bounds auth.synthetic

/-- The ways an operation stores an assignment: decided in the state `s₀` the operation began
in, stored in the state `s`. -/
inductive Stores (c : FabricConfig) (now : ClockReadings) (s₀ s : FabricState) :
    Op → RecordedAssignment → Prop
  | revalidated {op : Op} {base : FabricState} {t : Micros} {r r' : AssignmentRecord}
      (hop : op.revalidation c now s₀ = some (base, t))
      (hvalid : ∀ x, s.assignmentValidity x t = base.assignmentValidity x t)
      (hfind : s.assignments.find? r.id = some r) (hbase : base.assignments.find? r.id = some r)
      (hr : s.revalidated c.bounds r t = some r') :
      Stores c now s₀ s op ⟨r', .empty, .zero⟩
  | revoked {request : RevokeRequest} {r : AssignmentRecord} (hs : s = s₀)
      (hfind : s.assignments.find? request.assignment = some r) (hne : r.state ≠ .revoked)
      (hcheck : s.revocationChecks request r (now 0) = .ok ()) :
      Stores c now s₀ s (.revoke request)
        ⟨r.enter c.bounds .revoked request.reason (now 0), request.requestId,
          request.fingerprint⟩
  | reauthorized {request : ReauthorizeRequest} {r : AssignmentRecord} {validity : ReasonCode}
      {lease : LeaseId} {attempt : AttemptId} {fence : FencingToken}
      (hs : s₀.Renews lease attempt fence s)
      (hfind : s₀.assignments.find? request.assignment = some r)
      (hcheck : s₀.reauthorizationChecks request r (now 0) = .ok validity) :
      Stores c now s₀ s (.reauthorize request)
        ⟨s₀.reauthorized c.bounds r request.authority validity lease attempt fence (now 0),
          request.requestId, request.fingerprint⟩
  | reported {report : EffectReport} {r r' : AssignmentRecord} (hs : s = s₀)
      (hfind : s.assignments.find? report.assignment = some r)
      (hfence : fencingChecks s report r = .ok ())
      (hr : effectStep c.bounds report r (now 0) = .ok (some r')) :
      Stores c now s₀ s (.reportEffect report)
        ⟨r', report.requestId, report.fingerprint c.bounds⟩
  | superseded {op : Op} {p : AssignmentPlan} {options : ApplyOptions} {auth : Authorization}
      {t : Micros} {i : FabricState.Identity} {previous : AssignmentRecord}
      (ha : Authorized c now s₀ op p options auth t) (hs : s₀.Issues i s)
      (hne : auth.replacing ≠ .empty)
      (hfind : s.assignments.find? auth.replacing = some previous) :
      Stores c now s₀ s op
        ⟨previous.enter c.bounds .superseded .superseded t, .empty, .zero⟩
  | created {op : Op} {p : AssignmentPlan} {options : ApplyOptions} {auth : Authorization}
      {t : Micros} {i : FabricState.Identity} {issued : FabricState}
      (ha : Authorized c now s₀ op p options auth t) (hi : s₀.Issues i issued)
      (hs : s = issued.superseding c.bounds auth.replacing ⟨auth.scope, p.cls⟩ t) :
      Stores c now s₀ s op
        ⟨newAssignment c s₀ p auth options.requestId i.id i.lease i.attempt i.fence t,
          options.requestId, auth.fingerprint c options⟩

/-- The payload of a stored assignment, alone or behind the report that moved it. -/
inductive Payload (b : Bounds) (v : RecordedAssignment) : RecordType → Bytes → Prop
  | created {payload : Bytes}
      (h : (encRecordedAssignment v).encode b.maxRecordBytes.toNat = .ok payload) :
      Payload b v .assignmentCreated payload
  | transitioned {payload : Bytes}
      (h : (encRecordedAssignment v).encode b.maxRecordBytes.toNat = .ok payload) :
      Payload b v .assignmentTransitioned payload
  | effect {payload : Bytes} {report : EffectReport}
      (h : (encRecordedEffect ⟨report, v.record, v.requestId, v.requestFingerprint⟩).encode
        b.maxRecordBytes.toNat = .ok payload) :
      Payload b v .effectRecorded payload

/-- The answer recorded with a stored assignment, when its request has an identifier. -/
def Answers (b : Bounds) (v : RecordedAssignment) (response : Bytes) : Prop :=
  v.requestId ≠ .empty →
    (encAssignment v.record).encode b.maxRecordBytes.toNat = .ok response

namespace Op

/-- The request identifier an operation looks up and the fingerprint it expects there. -/
def lookup (c : FabricConfig) (s : FabricState) : Op → Option (RequestId × Digest)
  | apply request _ => some (request.requestId, fingerprintOf c.bounds request)
  | applyPlan planned options => some (options.requestId, planned.plan.planDigest)
  | replace request =>
      (s.assignments.find? request.current).map fun current ↦
        let placement := Fabric.replacementPlacement request current
        (placement.requestId, fingerprintOf c.bounds placement)
  | revoke request => some (request.requestId, request.fingerprint)
  | reauthorize request => some (request.requestId, request.fingerprint)
  | reportEffect report => some (report.requestId, report.fingerprint c.bounds)
  | _ => none

/-- The lookup of an operation finds nothing. -/
def Missed (c : FabricConfig) (s : FabricState) (op : Op) : Prop :=
  ∀ k ∈ op.lookup c s, s.findIdempotency k.1 = none

end Op

/-- One change of the runtime in the course of a step that began in `m₀`. -/
inductive Change (c : FabricConfig) (st : Step) (m₀ : Impl) : Impl → Impl → Prop
  /-- A durable call that recorded nothing. -/
  | settled {m : Impl} {l : Log} (h : Settled c.bounds m.state m.log l) :
      Change c st m₀ m { m with log := l }
  /-- Evidence, recorded and applied. -/
  | delivered {m : Impl} {l : Log} {d : Delivery} {payload : Bytes} (hm : m.state = m₀.state)
      (hd : st.op.delivery c st.now m.state = .ok (some d))
      (hp : d.payload.encode c.bounds.maxRecordBytes.toNat = .ok payload)
      (hl : Commits c m d.type payload l) :
      Change c st m₀ m { m with log := l, state := d.next }
  /-- An assignment, recorded, stored and answered. -/
  | stored {m : Impl} {l : Log} {v : RecordedAssignment} {type : RecordType}
      {payload response : Bytes} {t : Micros} (hmiss : st.op.Missed c m₀.state)
      (hv : Stores c st.now m₀.state m.state st.op v) (hp : Payload c.bounds v type payload)
      (hr : Answers c.bounds v response) (hl : Commits c m type payload l) :
      Change c st m₀ m { m with log := l, state := m.state.storing c.bounds v response t }
  /-- A refusal, recorded for its request. -/
  | refused {m : Impl} {l : Log} {e : Error} {response payload : Bytes} {t : Micros}
      {id : RequestId} {fingerprint : Digest} (hmiss : st.op.Missed c m₀.state)
      (hid : id ≠ .empty) (hk : st.op.lookup c m₀.state = some (id, fingerprint))
      (hr : (encErrorEnvelope c.bounds e).encode (c.bounds.maxReasonDetailBytes + 64).toNat =
        .ok response)
      (hp : (encRecordedRequest ⟨id, fingerprint, e.code, response, t⟩).encode
        c.bounds.maxRecordBytes.toNat = .ok payload)
      (hl : Commits c m .requestRecorded payload l) :
      Change c st m₀ m { m with
        log := l
        state := m.state.recordIdempotency c.bounds id ⟨fingerprint, e.code, response, t⟩ }
  /-- A reassignment stamp, in memory. -/
  | stamped {m : Impl} {k : ExclusivityKey} {t : Micros} :
      Change c st m₀ m { m with state := m.state.pushReassignment c.bounds k t }
  /-- The record of a reassignment stamp. -/
  | noted {m : Impl} {l : Log} {k : ExclusivityKey} {t : Micros} {payload : Bytes}
      (hp : (encReassignment (k, t)).encode 64 = .ok payload)
      (hl : Commits c m .reassignmentRecorded payload l) :
      Change c st m₀ m { m with log := l }
  /-- An identifier or a token. -/
  | issued {m : Impl} {i : Issued} {s : FabricState} (hop : st.op.lookup c m₀.state ≠ none)
      (hi : m.state.Issue i s) :
      Change c st m₀ m { m with state := s, issued := m.issued ++ [i] }
  /-- The flag of a shutdown under way. -/
  | flagged {m : Impl} {shuttingDown : Bool} : Change c st m₀ m { m with shuttingDown }
  /-- An accepted recovery. -/
  | accepted {m : Impl} (hrun : m.running = true) :
      Change c st m₀ m { m with recoveryAccepted := true }
  /-- The end of a runtime. -/
  | closed {m : Impl} (hop : st.op = .shutdown) :
      Change c st m₀ m { m with storeOpen := false, running := false }
  /-- The seal of a store. -/
  | sealed {m : Impl} {l : Log} {payload : Bytes} (hop : st.op = .shutdown)
      (hsnapshot : l.snapshot = m.log.snapshot)
      (hrecords : l.records = m.log.records ++ [(.storeSealed, payload)]) :
      Change c st m₀ m { m with log := l }
  /-- The loss of the process. -/
  | crashed {m : Impl} (hop : st.op = .crash) :
      Change c st m₀ m { log := m.log, issued := m.issued }

/-! ## Starts -/

/-- One change of the suspension loop of a start, `src/fabric.cpp:2736-2760`. -/
inductive Suspends (c : FabricConfig) (now : Micros) : Impl → Impl → Prop
  /-- A durable call that recorded nothing. -/
  | settled {m : Impl} {l : Log} (h : Settled c.bounds m.state m.log l) :
      Suspends c now m { m with log := l }
  /-- An assignment, suspended. -/
  | stored {m : Impl} {l : Log} {r r' : AssignmentRecord} {type : RecordType} {payload : Bytes}
      (hfind : m.state.assignments.find? r.id = some r) (hlive : r.state.isLive = true)
      (hne : r.state ≠ .suspended)
      (hr : r' = r.enter c.bounds .suspended .restartAuthorityReset now)
      (hp : Payload c.bounds ⟨r', .empty, .zero⟩ type payload)
      (hl : Commits c m type payload l) :
      Suspends c now m { m with log := l, state := m.state.insertAssignment r' }

/-- The runtime once its store is open. -/
def Impl.opened (m : Impl) (l : Log) : Impl :=
  { m with log := l, storeOpen := true, shuttingDown := false }

/-- The state a start continues in: the recovered one, in its epoch. -/
def FabricState.restarting (s : FabricState) (counter : UInt64) (boot : BootId) : FabricState :=
  s.rebuildIndexes.enterEpoch counter boot

/-- A start up to its suspension loop: the recovery, the epoch and its record. -/
structure Restarted (c : FabricConfig) (boot : BootId) (m m' : Impl) : Prop where
  stopped : m.running = false
  exists_recovery : ∃ l s counter payload l', m.log.Same l ∧
    (Fabric.recover c.bounds l).exec m.state = (.ok (), s) ∧
    s.rebuildIndexes.nextEpoch = .ok counter ∧
    (encEpoch ⟨counter, boot⟩).encode 64 = .ok payload ∧
    Recorded c.bounds (s.restarting counter boot) .epochStarted payload l l' ∧
    m' = { m.opened l' with state := (s.restarting counter boot).applyRecoveryInvariants }

/-- Where a start may leave the runtime. -/
inductive Start (c : FabricConfig) (now : Micros) (boot : BootId) (m : Impl) : Impl → Prop
  /-- Nothing was recovered. -/
  | refused {l : Log} {shuttingDown : Bool} (h : m.log.Same l) :
      Start c now boot m { m with log := l, shuttingDown }
  /-- There is no store to recover from. -/
  | bare (hstore : c.hasStore = false) (hrun : m.running = false) :
      Start c now boot m { m with
        state := { m.state with epochCounter := 1, epoch := ⟨1, boot⟩ }
        running := true
        recoveryAccepted := true
        shuttingDown := false }
  /-- The recovery stopped at what it could not read. -/
  | unreadable {l : Log} {s : FabricState} {e : Error} (hstore : c.hasStore = true)
      (hrun : m.running = false) (h : m.log.Same l)
      (hr : (Fabric.recover c.bounds l).exec m.state = (.error e, s)) :
      Start c now boot m { m.opened l with state := s }
  /-- There is no further epoch. -/
  | exhausted {l : Log} {s : FabricState} (hstore : c.hasStore = true)
      (hrun : m.running = false) (h : m.log.Same l)
      (hr : (Fabric.recover c.bounds l).exec m.state = (.ok (), s)) :
      Start c now boot m { m.opened l with state := s.rebuildIndexes }
  /-- The epoch was not recorded. -/
  | unrecorded {l l' : Log} {s : FabricState} {counter : UInt64} (hstore : c.hasStore = true)
      (hrun : m.running = false) (h : m.log.Same l)
      (hr : (Fabric.recover c.bounds l).exec m.state = (.ok (), s))
      (hn : s.rebuildIndexes.nextEpoch = .ok counter)
      (hl : Settled c.bounds (s.restarting counter boot) l l') :
      Start c now boot m { m.opened l' with state := s.restarting counter boot }
  /-- The suspension loop stopped. -/
  | suspending {m₁ m' : Impl} (hstore : c.hasStore = true) (h : Restarted c boot m m₁)
      (hs : Relation.ReflTransGen (Suspends c now) m₁ m') : Start c now boot m m'
  /-- Every assignment that was live is suspended. -/
  | launched {m₁ m' : Impl} {accepted : Bool} (hstore : c.hasStore = true)
      (h : Restarted c boot m m₁) (hs : Relation.ReflTransGen (Suspends c now) m₁ m')
      (hall : ∀ r ∈ m'.state.assignments.values, r.state.isLive = true → r.state = .suspended) :
      Start c now boot m { m' with running := true, recoveryAccepted := accepted }

end OffloadFabric
