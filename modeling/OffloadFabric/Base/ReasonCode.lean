import Mathlib.Data.UInt

/-!
# Reason codes and refusals

The stable, explicitly numbered reason codes of `include/nof/error.hpp:28-158`, their
tokens and categories, and the value-or-error results of `include/nof/error.hpp:183-259`.
The numeric values are durable: they appear in journal records and on the wire.
-/

namespace OffloadFabric

/-- `ReasonCode`, `include/nof/error.hpp:27-145`. -/
inductive ReasonCode where
  | ok | hostFallbackApplied | idempotentDuplicate | appliedVerified | acknowledgedNotApplied
  | truncatedResult | evictedEntry | supersededPlan | malformedInput | truncatedInput
  | oversizedInput | integrityFailure | incompatibleVersion | semanticsMismatch
  | unsupportedValue | invalidIdentifier | duplicateIdentity | outOfRange | arithmeticOverflow
  | unknownIdentity | notFound | alreadyExists | sequenceRegression | emptyInput
  | evidenceMissing | evidenceStale | evidenceSuperseded | evidenceConflicting | evidenceUnknown
  | generationMismatch | incarnationMismatch | topologyStale | policyStale | capabilityStale
  | capabilityUnknown | provenanceMismatch | livenessUnknown | livenessStale | observationExpired
  | livenessDegraded | livenessDead | capabilityUnsupported | capabilityIncompatible
  | refusedByPolicy | authorityMissing | authorityExpired | authorityScopeMismatch
  | authorityWithdrawn | notAuthorized | antiAffinityViolation | affinityUnsatisfied
  | capacityExhausted | dependencyUnresolved | dependencyFailed | dependencyCycle
  | hostFallbackNotPermitted | functionClassNotPermitted | deviceKindNotPermitted
  | noEligibleTarget | exclusiveConflict | targetDisappeared | reassignmentBudgetExhausted
  | scopeConflict | planSuperseded | placementRefused | illegalStateTransition | leaseExpired
  | leaseNotHeld | fencedAttempt | epochStale | replayDetected | effectRejected | effectFailed
  | effectUnknown | revoked | superseded | attemptMismatch | assignmentNotActive
  | fenceRegression | storeUnavailable | storeCorrupt | storeTruncated | journalTornTail
  | incompatibleSemantics | compactionRequired | recoveryRequired | restartAuthorityReset
  | observationStaleAfterRestart | crashBoundaryInjected | storeClosed | frameInvalid
  | unsupportedOpcode | protocolVersionMismatch | payloadTooLarge | peerClosed
  | connectionRefused | duplicateDelivery | requestDigestMismatch | endpointInvalid
  | connectionLimitExceeded | responseTooLarge | cancelled | shuttingDown | limitExceeded
  | queueFull | internalInvariant | unsupportedOperation | workerUnavailable
  | invalidConfiguration
  deriving DecidableEq, Repr, Inhabited

namespace ReasonCode

/-- The durable number of a code, `include/nof/error.hpp:29-157`. -/
def code : ReasonCode → UInt16
  | .ok => 0x0000
  | .hostFallbackApplied => 0x0001
  | .idempotentDuplicate => 0x0002
  | .appliedVerified => 0x0003
  | .acknowledgedNotApplied => 0x0004
  | .truncatedResult => 0x0005
  | .evictedEntry => 0x0006
  | .supersededPlan => 0x0007
  | .malformedInput => 0x0100
  | .truncatedInput => 0x0101
  | .oversizedInput => 0x0102
  | .integrityFailure => 0x0103
  | .incompatibleVersion => 0x0104
  | .semanticsMismatch => 0x0105
  | .unsupportedValue => 0x0106
  | .invalidIdentifier => 0x0107
  | .duplicateIdentity => 0x0108
  | .outOfRange => 0x0109
  | .arithmeticOverflow => 0x010A
  | .unknownIdentity => 0x010B
  | .notFound => 0x010C
  | .alreadyExists => 0x010D
  | .sequenceRegression => 0x010E
  | .emptyInput => 0x010F
  | .evidenceMissing => 0x0200
  | .evidenceStale => 0x0201
  | .evidenceSuperseded => 0x0202
  | .evidenceConflicting => 0x0203
  | .evidenceUnknown => 0x0204
  | .generationMismatch => 0x0205
  | .incarnationMismatch => 0x0206
  | .topologyStale => 0x0207
  | .policyStale => 0x0208
  | .capabilityStale => 0x0209
  | .capabilityUnknown => 0x020A
  | .provenanceMismatch => 0x020B
  | .livenessUnknown => 0x020C
  | .livenessStale => 0x020D
  | .observationExpired => 0x020E
  | .livenessDegraded => 0x020F
  | .livenessDead => 0x0210
  | .capabilityUnsupported => 0x0300
  | .capabilityIncompatible => 0x0301
  | .refusedByPolicy => 0x0302
  | .authorityMissing => 0x0303
  | .authorityExpired => 0x0304
  | .authorityScopeMismatch => 0x0305
  | .authorityWithdrawn => 0x0306
  | .notAuthorized => 0x0307
  | .antiAffinityViolation => 0x0308
  | .affinityUnsatisfied => 0x0309
  | .capacityExhausted => 0x030A
  | .dependencyUnresolved => 0x030B
  | .dependencyFailed => 0x030C
  | .dependencyCycle => 0x030D
  | .hostFallbackNotPermitted => 0x030E
  | .functionClassNotPermitted => 0x030F
  | .deviceKindNotPermitted => 0x0310
  | .noEligibleTarget => 0x0400
  | .exclusiveConflict => 0x0401
  | .targetDisappeared => 0x0402
  | .reassignmentBudgetExhausted => 0x0403
  | .scopeConflict => 0x0404
  | .planSuperseded => 0x0405
  | .placementRefused => 0x0406
  | .illegalStateTransition => 0x0500
  | .leaseExpired => 0x0501
  | .leaseNotHeld => 0x0502
  | .fencedAttempt => 0x0503
  | .epochStale => 0x0504
  | .replayDetected => 0x0505
  | .effectRejected => 0x0506
  | .effectFailed => 0x0507
  | .effectUnknown => 0x0508
  | .revoked => 0x0509
  | .superseded => 0x050A
  | .attemptMismatch => 0x050B
  | .assignmentNotActive => 0x050C
  | .fenceRegression => 0x050D
  | .storeUnavailable => 0x0600
  | .storeCorrupt => 0x0601
  | .storeTruncated => 0x0602
  | .journalTornTail => 0x0603
  | .incompatibleSemantics => 0x0604
  | .compactionRequired => 0x0605
  | .recoveryRequired => 0x0606
  | .restartAuthorityReset => 0x0607
  | .observationStaleAfterRestart => 0x0608
  | .crashBoundaryInjected => 0x0609
  | .storeClosed => 0x060A
  | .frameInvalid => 0x0700
  | .unsupportedOpcode => 0x0701
  | .protocolVersionMismatch => 0x0702
  | .payloadTooLarge => 0x0703
  | .peerClosed => 0x0704
  | .connectionRefused => 0x0705
  | .duplicateDelivery => 0x0706
  | .requestDigestMismatch => 0x0707
  | .endpointInvalid => 0x0708
  | .connectionLimitExceeded => 0x0709
  | .responseTooLarge => 0x070A
  | .cancelled => 0x0800
  | .shuttingDown => 0x0801
  | .limitExceeded => 0x0802
  | .queueFull => 0x0803
  | .internalInvariant => 0x0804
  | .unsupportedOperation => 0x0805
  | .workerUnavailable => 0x0806
  | .invalidConfiguration => 0x0807

/-- `to_string(ReasonCode)`, `src/error.cpp:130-138`. -/
def token : ReasonCode → String
  | .ok => "OK"
  | .hostFallbackApplied => "HOST_FALLBACK_APPLIED"
  | .idempotentDuplicate => "IDEMPOTENT_DUPLICATE"
  | .appliedVerified => "APPLIED_VERIFIED"
  | .acknowledgedNotApplied => "ACKNOWLEDGED_NOT_APPLIED"
  | .truncatedResult => "TRUNCATED_RESULT"
  | .evictedEntry => "EVICTED_ENTRY"
  | .supersededPlan => "SUPERSEDED_PLAN"
  | .malformedInput => "MALFORMED_INPUT"
  | .truncatedInput => "TRUNCATED_INPUT"
  | .oversizedInput => "OVERSIZED_INPUT"
  | .integrityFailure => "INTEGRITY_FAILURE"
  | .incompatibleVersion => "INCOMPATIBLE_VERSION"
  | .semanticsMismatch => "SEMANTICS_MISMATCH"
  | .unsupportedValue => "UNSUPPORTED_VALUE"
  | .invalidIdentifier => "INVALID_IDENTIFIER"
  | .duplicateIdentity => "DUPLICATE_IDENTITY"
  | .outOfRange => "OUT_OF_RANGE"
  | .arithmeticOverflow => "ARITHMETIC_OVERFLOW"
  | .unknownIdentity => "UNKNOWN_IDENTITY"
  | .notFound => "NOT_FOUND"
  | .alreadyExists => "ALREADY_EXISTS"
  | .sequenceRegression => "SEQUENCE_REGRESSION"
  | .emptyInput => "EMPTY_INPUT"
  | .evidenceMissing => "EVIDENCE_MISSING"
  | .evidenceStale => "EVIDENCE_STALE"
  | .evidenceSuperseded => "EVIDENCE_SUPERSEDED"
  | .evidenceConflicting => "EVIDENCE_CONFLICTING"
  | .evidenceUnknown => "EVIDENCE_UNKNOWN"
  | .generationMismatch => "GENERATION_MISMATCH"
  | .incarnationMismatch => "INCARNATION_MISMATCH"
  | .topologyStale => "TOPOLOGY_STALE"
  | .policyStale => "POLICY_STALE"
  | .capabilityStale => "CAPABILITY_STALE"
  | .capabilityUnknown => "CAPABILITY_UNKNOWN"
  | .provenanceMismatch => "PROVENANCE_MISMATCH"
  | .livenessUnknown => "LIVENESS_UNKNOWN"
  | .livenessStale => "LIVENESS_STALE"
  | .observationExpired => "OBSERVATION_EXPIRED"
  | .livenessDegraded => "LIVENESS_DEGRADED"
  | .livenessDead => "LIVENESS_DEAD"
  | .capabilityUnsupported => "CAPABILITY_UNSUPPORTED"
  | .capabilityIncompatible => "CAPABILITY_INCOMPATIBLE"
  | .refusedByPolicy => "REFUSED_BY_POLICY"
  | .authorityMissing => "AUTHORITY_MISSING"
  | .authorityExpired => "AUTHORITY_EXPIRED"
  | .authorityScopeMismatch => "AUTHORITY_SCOPE_MISMATCH"
  | .authorityWithdrawn => "AUTHORITY_WITHDRAWN"
  | .notAuthorized => "NOT_AUTHORIZED"
  | .antiAffinityViolation => "ANTI_AFFINITY_VIOLATION"
  | .affinityUnsatisfied => "AFFINITY_UNSATISFIED"
  | .capacityExhausted => "CAPACITY_EXHAUSTED"
  | .dependencyUnresolved => "DEPENDENCY_UNRESOLVED"
  | .dependencyFailed => "DEPENDENCY_FAILED"
  | .dependencyCycle => "DEPENDENCY_CYCLE"
  | .hostFallbackNotPermitted => "HOST_FALLBACK_NOT_PERMITTED"
  | .functionClassNotPermitted => "FUNCTION_CLASS_NOT_PERMITTED"
  | .deviceKindNotPermitted => "DEVICE_KIND_NOT_PERMITTED"
  | .noEligibleTarget => "NO_ELIGIBLE_TARGET"
  | .exclusiveConflict => "EXCLUSIVE_CONFLICT"
  | .targetDisappeared => "TARGET_DISAPPEARED"
  | .reassignmentBudgetExhausted => "REASSIGNMENT_BUDGET_EXHAUSTED"
  | .scopeConflict => "SCOPE_CONFLICT"
  | .planSuperseded => "PLAN_SUPERSEDED"
  | .placementRefused => "PLACEMENT_REFUSED"
  | .illegalStateTransition => "ILLEGAL_STATE_TRANSITION"
  | .leaseExpired => "LEASE_EXPIRED"
  | .leaseNotHeld => "LEASE_NOT_HELD"
  | .fencedAttempt => "FENCED_ATTEMPT"
  | .epochStale => "EPOCH_STALE"
  | .replayDetected => "REPLAY_DETECTED"
  | .effectRejected => "EFFECT_REJECTED"
  | .effectFailed => "EFFECT_FAILED"
  | .effectUnknown => "EFFECT_UNKNOWN"
  | .revoked => "REVOKED"
  | .superseded => "SUPERSEDED"
  | .attemptMismatch => "ATTEMPT_MISMATCH"
  | .assignmentNotActive => "ASSIGNMENT_NOT_ACTIVE"
  | .fenceRegression => "FENCE_REGRESSION"
  | .storeUnavailable => "STORE_UNAVAILABLE"
  | .storeCorrupt => "STORE_CORRUPT"
  | .storeTruncated => "STORE_TRUNCATED"
  | .journalTornTail => "JOURNAL_TORN_TAIL"
  | .incompatibleSemantics => "INCOMPATIBLE_SEMANTICS"
  | .compactionRequired => "COMPACTION_REQUIRED"
  | .recoveryRequired => "RECOVERY_REQUIRED"
  | .restartAuthorityReset => "RESTART_AUTHORITY_RESET"
  | .observationStaleAfterRestart => "OBSERVATION_STALE_AFTER_RESTART"
  | .crashBoundaryInjected => "CRASH_BOUNDARY_INJECTED"
  | .storeClosed => "STORE_CLOSED"
  | .frameInvalid => "FRAME_INVALID"
  | .unsupportedOpcode => "UNSUPPORTED_OPCODE"
  | .protocolVersionMismatch => "PROTOCOL_VERSION_MISMATCH"
  | .payloadTooLarge => "PAYLOAD_TOO_LARGE"
  | .peerClosed => "PEER_CLOSED"
  | .connectionRefused => "CONNECTION_REFUSED"
  | .duplicateDelivery => "DUPLICATE_DELIVERY"
  | .requestDigestMismatch => "REQUEST_DIGEST_MISMATCH"
  | .endpointInvalid => "ENDPOINT_INVALID"
  | .connectionLimitExceeded => "CONNECTION_LIMIT_EXCEEDED"
  | .responseTooLarge => "RESPONSE_TOO_LARGE"
  | .cancelled => "CANCELLED"
  | .shuttingDown => "SHUTTING_DOWN"
  | .limitExceeded => "LIMIT_EXCEEDED"
  | .queueFull => "QUEUE_FULL"
  | .internalInvariant => "INTERNAL_INVARIANT"
  | .unsupportedOperation => "UNSUPPORTED_OPERATION"
  | .workerUnavailable => "WORKER_UNAVAILABLE"
  | .invalidConfiguration => "INVALID_CONFIGURATION"

/-- Every named code, in the order of `NOF_REASON_CODES`, `src/error.cpp:8-128`. -/
def all : List ReasonCode :=
  [.ok, .hostFallbackApplied, .idempotentDuplicate, .appliedVerified, .acknowledgedNotApplied,
    .truncatedResult, .evictedEntry, .supersededPlan, .malformedInput, .truncatedInput,
    .oversizedInput, .integrityFailure, .incompatibleVersion, .semanticsMismatch,
    .unsupportedValue, .invalidIdentifier, .duplicateIdentity, .outOfRange, .arithmeticOverflow,
    .unknownIdentity, .notFound, .alreadyExists, .sequenceRegression, .emptyInput,
    .evidenceMissing, .evidenceStale, .evidenceSuperseded, .evidenceConflicting,
    .evidenceUnknown, .generationMismatch, .incarnationMismatch, .topologyStale, .policyStale,
    .capabilityStale, .capabilityUnknown, .provenanceMismatch, .livenessUnknown, .livenessStale,
    .observationExpired, .livenessDegraded, .livenessDead, .capabilityUnsupported,
    .capabilityIncompatible, .refusedByPolicy, .authorityMissing, .authorityExpired,
    .authorityScopeMismatch, .authorityWithdrawn, .notAuthorized, .antiAffinityViolation,
    .affinityUnsatisfied, .capacityExhausted, .dependencyUnresolved, .dependencyFailed,
    .dependencyCycle, .hostFallbackNotPermitted, .functionClassNotPermitted,
    .deviceKindNotPermitted, .noEligibleTarget, .exclusiveConflict, .targetDisappeared,
    .reassignmentBudgetExhausted, .scopeConflict, .planSuperseded, .placementRefused,
    .illegalStateTransition, .leaseExpired, .leaseNotHeld, .fencedAttempt, .epochStale,
    .replayDetected, .effectRejected, .effectFailed, .effectUnknown, .revoked, .superseded,
    .attemptMismatch, .assignmentNotActive, .fenceRegression, .storeUnavailable, .storeCorrupt,
    .storeTruncated, .journalTornTail, .incompatibleSemantics, .compactionRequired,
    .recoveryRequired, .restartAuthorityReset, .observationStaleAfterRestart,
    .crashBoundaryInjected, .storeClosed, .frameInvalid, .unsupportedOpcode,
    .protocolVersionMismatch, .payloadTooLarge, .peerClosed, .connectionRefused,
    .duplicateDelivery, .requestDigestMismatch, .endpointInvalid, .connectionLimitExceeded,
    .responseTooLarge, .cancelled, .shuttingDown, .limitExceeded, .queueFull, .internalInvariant,
    .unsupportedOperation, .workerUnavailable, .invalidConfiguration]

/-- The cast of a raw number to a named code; `none` where `to_string` gives `UNKNOWN_REASON`,
`src/wire.cpp:107-117`. -/
def ofCode? (raw : UInt16) : Option ReasonCode :=
  all.find? fun r ↦ r.code == raw

/-- Every reason code is listed. -/
theorem mem_all (r : ReasonCode) : r ∈ all := by
  cases r <;> decide

/-- A written code is read back as itself. -/
@[simp] theorem ofCode?_code (r : ReasonCode) : ofCode? r.code = some r := by
  have table : ∀ x ∈ all, all.find? (fun y ↦ y.code == x.code) = some x := by
    decide +kernel
  exact table r (mem_all r)

/-- Numbers are never shared by two codes. -/
theorem code_inj {r s : ReasonCode} (h : r.code = s.code) : r = s := by
  have hr := ofCode?_code r
  rw [h, ofCode?_code s] at hr
  exact (Option.some.inj hr).symm

/-- `parse_reason_code`, `src/error.cpp:172-190`. -/
def parse? (text : String) : Option ReasonCode :=
  all.find? fun r ↦ r.token == text

end ReasonCode

/-- `ReasonCategory`, `include/nof/error.hpp:147-152`. -/
inductive ReasonCategory where
  | ok | informational | refusal | recovery
  deriving DecidableEq, Repr

/-- `category_of`, `src/error.cpp:144-164`. -/
def ReasonCode.category (r : ReasonCode) : ReasonCategory :=
  if r.code = 0 then .ok
  else if r.code < 0x0100 then .informational
  else match r with
    | .journalTornTail | .restartAuthorityReset | .observationStaleAfterRestart
    | .crashBoundaryInjected => .recovery
    | _ => .refusal

/-- `Error`, `include/nof/error.hpp:172-182`: a code and its detail text. -/
structure Error where
  code : ReasonCode
  detail : String
  deriving DecidableEq, Repr

/-- `Result<T>`, `include/nof/error.hpp:213-248`; `Status` is `Result Unit`. -/
abbrev Result (α : Type) := Except Error α

/-- A bare code lifted to an error, `include/nof/error.hpp:188`. -/
def ReasonCode.error (r : ReasonCode) (detail : String) : Error := ⟨r, detail⟩

/-- A check: refuse with the given error unless the condition holds. -/
def require {ε : Type} (p : Prop) [Decidable p] (e : ε) : Except ε Unit :=
  if p then .ok () else .error e

@[simp] theorem require_eq_ok {ε : Type} {p : Prop} [Decidable p] {e : ε} {u : Unit} :
    require p e = .ok u ↔ p := by
  unfold require
  split <;> simp_all

@[simp] theorem require_eq_error {ε : Type} {p : Prop} [Decidable p] {e e' : ε} :
    require p e = .error e' ↔ ¬ p ∧ e = e' := by
  unfold require
  split <;> simp_all

/-- A lookup that must succeed: refuse with the given error when it finds nothing. -/
def present {ε α : Type} (o : Option α) (e : ε) : Except ε α :=
  match o with
  | some a => .ok a
  | none => .error e

@[simp] theorem present_eq_ok {ε α : Type} {o : Option α} {e : ε} {a : α} :
    present o e = .ok a ↔ o = some a := by
  cases o <;> simp [present]

/-- A sequence of checks passed exactly when each did. -/
theorem bind_eq_ok {ε α β : Type} {x : Except ε α} {f : α → Except ε β} {b : β} :
    x >>= f = .ok b ↔ ∃ a, x = .ok a ∧ f a = .ok b := by
  cases x with
  | error e =>
      constructor
      · intro h
        cases h
      · intro ⟨a, h, _⟩
        cases h
  | ok a =>
      constructor
      · intro h
        exact ⟨a, rfl, h⟩
      · intro ⟨c, hc, h⟩
        cases hc
        exact h

/-- A check before the rest. -/
theorem require_bind_eq_ok {ε β : Type} {p : Prop} [Decidable p] {e : ε}
    {f : Unit → Except ε β} {b : β} : (require p e >>= f) = .ok b ↔ p ∧ f () = .ok b := by
  rw [bind_eq_ok]
  constructor
  · rintro ⟨u, hp, h⟩
    exact ⟨require_eq_ok.mp hp, h⟩
  · rintro ⟨hp, h⟩
    exact ⟨(), require_eq_ok.mpr hp, h⟩

/-- A lookup before the rest. -/
theorem present_bind_eq_ok {ε α β : Type} {o : Option α} {e : ε} {f : α → Except ε β} {b : β} :
    (present o e >>= f) = .ok b ↔ ∃ a, o = some a ∧ f a = .ok b := by
  simp only [bind_eq_ok, present_eq_ok]

/-- A check of every member of a list. -/
theorem forM_eq_ok {ε α : Type} {f : α → Except ε Unit} {xs : List α} {u : PUnit} :
    xs.forM f = .ok u ↔ ∀ x ∈ xs, f x = .ok () := by
  induction xs with
  | nil => exact ⟨fun _ x hx ↦ absurd hx List.not_mem_nil, fun _ ↦ rfl⟩
  | cons x xs ih =>
      rw [List.forall_mem_cons]
      change (f x >>= fun _ ↦ xs.forM f) = .ok u ↔ _
      rw [bind_eq_ok]
      constructor
      · rintro ⟨u, hx, hxs⟩
        exact ⟨hx, ih.mp hxs⟩
      · rintro ⟨hx, hxs⟩
        exact ⟨(), hx, ih.mpr hxs⟩

/-- A reason that comes from no cancel token and no reassignment budget. -/
abbrev ReasonCode.Plain (r : ReasonCode) : Prop :=
  r ≠ .cancelled ∧ r ≠ .reassignmentBudgetExhausted

/-- Every refusal of a sequence of checks has the property. -/
def Fails {ε α : Type} (P : ε → Prop) (x : Except ε α) : Prop := ∀ e, x = .error e → P e

namespace Fails

variable {ε α β : Type} {P : ε → Prop}

theorem ok (a : α) : Fails P (.ok a) := by
  intro e he
  cases he

theorem error {e : ε} (h : P e) : Fails P (.error e : Except ε α) := by
  intro e' he
  cases he
  exact h

theorem mono {Q : ε → Prop} {x : Except ε α} (h : Fails P x) (hPQ : ∀ e, P e → Q e) :
    Fails Q x := fun e he ↦ hPQ e (h e he)

theorem require {p : Prop} [Decidable p] {e : ε} (h : ¬ p → P e) : Fails P (require p e) := by
  intro e' he
  obtain ⟨hp, rfl⟩ := require_eq_error.mp he
  exact h hp

theorem present {o : Option α} {e : ε} (h : P e) : Fails P (present o e) := by
  cases o with
  | none => exact .error h
  | some a => exact .ok a

theorem bind {x : Except ε α} {f : α → Except ε β} (hx : Fails P x)
    (hf : ∀ a, x = .ok a → Fails P (f a)) : Fails P (x >>= f) := by
  intro e he
  cases hx' : x with
  | error e' =>
      rw [hx'] at he
      cases he
      exact hx e hx'
  | ok a =>
      rw [hx'] at he
      exact hf a hx' e he

theorem forM {f : α → Except ε Unit} (hf : ∀ a, Fails P (f a)) (xs : List α) :
    Fails P (xs.forM f) := by
  induction xs with
  | nil => exact .ok _
  | cons x xs ih => exact .bind (hf x) fun _ _ ↦ ih

end Fails

end OffloadFabric
