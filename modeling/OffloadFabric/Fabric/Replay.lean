import OffloadFabric.Fabric.PayloadRoundTrip
import OffloadFabric.Fabric.Changes

/-!
# What a recovery makes of a log

A replayed record either is refused whatever the state is, or has an effect that its payload
alone decides. A recovery is the composition of the effects on the state of the snapshot, so
what a log holds follows its appends and compactions.
-/

namespace OffloadFabric

open Lib Lib.Fallible Lib.Coder FabricState Wire

/-- A payload carries an assignment, alone or behind the report that moved it. -/
inductive Carries (b : Bounds) (payload : Bytes) (v : RecordedAssignment) : RecordType → Prop
  | created (h : (decRecordedAssignment b).decode b.maxTextBytes.toNat payload = .ok v) :
      Carries b payload v .assignmentCreated
  | transitioned (h : (decRecordedAssignment b).decode b.maxTextBytes.toNat payload = .ok v) :
      Carries b payload v .assignmentTransitioned
  | effect {report : EffectReport}
      (h : (decRecordedEffect b).decode b.maxTextBytes.toNat payload =
        .ok ⟨report, v.record, v.requestId, v.requestFingerprint⟩) :
      Carries b payload v .effectRecorded

theorem Carries.isEvidence {b : Bounds} {payload : Bytes} {v : RecordedAssignment}
    {type : RecordType} (h : Carries b payload v type) : type.isEvidence = false := by
  cases h <;> rfl

/-- What a record does to the state it is replayed on, `src/fabric.cpp:1818-2010`. -/
inductive Effect (b : Bounds) (payload : Bytes) : RecordType → (FabricState → FabricState) → Prop
  | epoch {e : CoordinatorEpoch}
      (h : decEpoch.decode b.maxTextBytes.toNat payload = .ok e) :
      Effect b payload .epochStarted
        fun s ↦ { s with epoch := e, epochCounter := max s.epochCounter e.counter }
  | assignment {type : RecordType} {v : RecordedAssignment} {response : Bytes} {t : Micros}
      (hv : Carries b payload v type) (hr : Answers b v response) :
      Effect b payload type fun s ↦ s.storing b v response t
  | request {v : RecordedRequest}
      (h : (decRecordedRequest b).decode b.maxTextBytes.toNat payload = .ok v) :
      Effect b payload .requestRecorded fun s ↦
        s.recordIdempotency b v.requestId ⟨v.requestFingerprint, v.outcome, v.response, v.atTime⟩
  | withdrawal {w : RecordedWithdrawal} {f : FabricState → FabricState}
      (h : decRecordedWithdrawal.decode b.maxTextBytes.toNat payload = .ok w)
      (hf : ∀ s, f s = { s with
        authority := (f s).authority
        idempotency := (f s).idempotency
        idempotencyOrder := (f s).idempotencyOrder })
      (hid : w.requestId = .empty → ∀ s, f s = { s with authority := (f s).authority }) :
      Effect b payload .authorityWithdrawn f
  | evidence {type : RecordType} {f : FabricState → FabricState}
      (htype : type ∈ [.functionRegistered, .topologyIngested, .capabilityIngested,
        .policyIngested, .observationsIngested, .authorityGranted, .reassignmentRecorded,
        .scopeReleased, .snapshotBase, .storeSealed])
      (hf : ∀ s, f s = { s with
        functions := (f s).functions
        observations := (f s).observations
        capabilities := (f s).capabilities
        topology := (f s).topology
        policy := (f s).policy
        authority := (f s).authority
        sources := (f s).sources
        reassignments := (f s).reassignments }) :
      Effect b payload type f

/-- Where a record that is refused stops: before it did anything, or with the assignment it
carries inserted and not answered. -/
def Stopped (b : Bounds) (type : RecordType) (payload : Bytes) (s t : FabricState) : Prop :=
  t = s ∨ ∃ v, Carries b payload v type ∧ t = s.insertAssignment v.record

/-- A program that stops with an error or runs through with one effect, whatever the state. -/
def Uniform (x : Replay Unit) (P : (FabricState → FabricState) → Prop)
    (Q : FabricState → FabricState → Prop) : Prop :=
  (∀ s, ∃ e t, x.exec s = (.error e, t) ∧ Q s t) ∨ ∃ f, P f ∧ ∀ s, x.exec s = (.ok (), f s)

/-- A program that reads its payload first. -/
private theorem uniform_read {α : Type} {b : Bounds} {d : Reader α} {payload : Bytes}
    {g : α → Replay Unit} {P : (FabricState → FabricState) → Prop} {type : RecordType}
    (h : ∀ a, d.decode b.maxTextBytes.toNat payload = .ok a →
      Uniform (g a) P (Stopped b type payload)) :
    Uniform (readPayload b d payload >>= g) P (Stopped b type payload) := by
  unfold readPayload
  cases hd : d.decode b.maxTextBytes.toNat payload with
  | error e =>
      refine .inl fun s ↦ ⟨e, s, ?_, .inl rfl⟩
      rw [exec_bind, exec_liftExcept]
  | ok a =>
      have hbind : ∀ s, (liftExcept (Except.ok a) >>= g).exec s = (g a).exec s := fun s ↦ by
        rw [exec_bind, exec_liftExcept]
      rcases h a hd with herr | ⟨f, hf, hok⟩
      · exact .inl fun s ↦ by
          rw [hbind]
          exact herr s
      · exact .inr ⟨f, hf, fun s ↦ by rw [hbind, hok]⟩

private theorem uniform_modify {f : FabricState → FabricState}
    {P : (FabricState → FabricState) → Prop} {Q : FabricState → FabricState → Prop} (h : P f) :
    Uniform (modify f) P Q :=
  .inr ⟨f, h, fun _ ↦ rfl⟩

private theorem uniform_replayAssignment {b : Bounds} {r : AssignmentRecord} {id : RequestId}
    {fingerprint : Digest} {t : Micros} {P : (FabricState → FabricState) → Prop}
    {type : RecordType} {payload : Bytes} (hv : Carries b payload ⟨r, id, fingerprint⟩ type)
    (h : ∀ response, Answers b ⟨r, id, fingerprint⟩ response →
      P fun s ↦ s.storing b ⟨r, id, fingerprint⟩ response t) :
    Uniform (replayAssignment b r id fingerprint t) P (Stopped b type payload) := by
  unfold replayAssignment
  by_cases hid : id = .empty
  · refine .inr ⟨_, h [] (absurd hid), fun s ↦ ?_⟩
    rw [exec_bind, exec_modify]
    simp only [hid, not_true, if_false, ne_eq]
    simp [storing, recordIdempotency]
  · cases hr : (encAssignment r).encode b.maxRecordBytes.toNat with
    | error e =>
        refine .inl fun s ↦ ⟨e, s.insertAssignment r, ?_, .inr ⟨_, hv, rfl⟩⟩
        rw [exec_bind, exec_modify]
        simp only [hid, ne_eq, not_false_eq_true, if_true]
        rw [exec_bind, exec_liftExcept]
    | ok response =>
        refine .inr ⟨_, h response fun _ ↦ hr, fun s ↦ ?_⟩
        rw [exec_bind, exec_modify]
        simp only [hid, ne_eq, not_false_eq_true, if_true]
        rw [exec_bind, exec_liftExcept]
        rfl

private theorem uniform_replayWithdrawal {b : Bounds} {payload : Bytes} {w : RecordedWithdrawal}
    (h : decRecordedWithdrawal.decode b.maxTextBytes.toNat payload = .ok w) :
    Uniform (replayWithdrawal b w) (Effect b payload .authorityWithdrawn)
      (Stopped b .authorityWithdrawn payload) := by
  unfold replayWithdrawal
  by_cases hid : w.requestId = .empty
  · refine .inr ⟨(·.withdrawn w.authority), .withdrawal h (fun s ↦ rfl) fun _ s ↦ rfl, fun s ↦ ?_⟩
    rw [exec_bind, exec_modify]
    simp only [hid, ne_eq, not_true, if_false]
    rfl
  · cases he : (encErrorEnvelope b ⟨w.reason, "authority withdrawal replayed"⟩).encode 64 with
    | error e =>
        refine .inr ⟨(·.withdrawn w.authority), .withdrawal h (fun s ↦ rfl) fun _ s ↦ rfl,
          fun s ↦ ?_⟩
        rw [exec_bind, exec_modify]
        simp only [hid, ne_eq, not_false_eq_true, if_true]
        rfl
    | ok response =>
        refine .inr ⟨fun s ↦ (s.withdrawn w.authority).recordIdempotency b w.requestId
          ⟨w.requestFingerprint, w.reason, response, w.atTime⟩,
          .withdrawal h (fun s ↦ ?_) (absurd · hid), fun s ↦ ?_⟩
        · rw [recordIdempotency_eq]
          rfl
        · rw [exec_bind, exec_modify]
          simp only [hid, ne_eq, not_false_eq_true, if_true]
          rfl

/-- A record is refused whatever the state is, or its payload decides its effect. -/
theorem applyRecord_uniform (b : Bounds) (type : RecordType) (payload : Bytes) :
    Uniform (applyRecord b type payload) (Effect b payload type) (Stopped b type payload) := by
  have hskip : type ∈ [.scopeReleased, .snapshotBase, .storeSealed] →
      applyRecord b type payload = pure () →
      Uniform (applyRecord b type payload) (Effect b payload type)
        (Stopped b type payload) := by
    intro htype heq
    rw [heq]
    refine .inr ⟨id, .evidence ?_ fun _ ↦ rfl, fun _ ↦ rfl⟩
    simp only [List.mem_cons, List.not_mem_nil, or_false] at htype ⊢
    tauto
  unfold applyRecord at hskip ⊢
  cases type with
  | epochStarted => exact uniform_read fun e he ↦ uniform_modify (.epoch he)
  | functionRegistered =>
      exact uniform_read fun f _ ↦ uniform_modify (.evidence (by decide) fun _ ↦ rfl)
  | topologyIngested =>
      exact uniform_read fun t _ ↦ uniform_modify (.evidence (by decide) fun _ ↦ rfl)
  | capabilityIngested =>
      exact uniform_read fun r _ ↦ uniform_modify (.evidence (by decide) fun _ ↦ rfl)
  | policyIngested =>
      exact uniform_read fun p _ ↦ uniform_modify (.evidence (by decide) fun _ ↦ rfl)
  | observationsIngested =>
      exact uniform_read fun r _ ↦ uniform_modify (.evidence (by decide) fun _ ↦ rfl)
  | authorityGranted =>
      exact uniform_read fun g _ ↦ uniform_modify (.evidence (by decide) fun _ ↦ rfl)
  | authorityWithdrawn => exact uniform_read fun w hw ↦ uniform_replayWithdrawal hw
  | assignmentCreated =>
      exact uniform_read fun v hv ↦ uniform_replayAssignment (.created hv) fun response hr ↦
        .assignment (.created hv) hr
  | assignmentTransitioned =>
      exact uniform_read fun v hv ↦ uniform_replayAssignment (.transitioned hv)
        fun response hr ↦ .assignment (.transitioned hv) hr
  | effectRecorded =>
      refine uniform_read fun v hv ↦ ?_
      have hcarries : Carries b payload ⟨v.record, v.requestId, v.requestFingerprint⟩
        .effectRecorded := .effect hv
      exact uniform_replayAssignment hcarries fun response hr ↦ .assignment hcarries hr
  | reassignmentRecorded =>
      exact uniform_read fun v _ ↦ uniform_modify (.evidence (by decide) fun _ ↦ rfl)
  | requestRecorded => exact uniform_read fun v hv ↦ uniform_modify (.request hv)
  | scopeReleased => exact hskip (by decide) rfl
  | snapshotBase => exact hskip (by decide) rfl
  | storeSealed => exact hskip (by decide) rfl

/-- A record is replayed with the given effect, whatever the state is. -/
def Replays (b : Bounds) (type : RecordType) (payload : Bytes)
    (f : FabricState → FabricState) : Prop :=
  ∀ s, (applyRecord b type payload).exec s = (.ok (), f s)

theorem Replays.effect {b : Bounds} {type : RecordType} {payload : Bytes}
    {f : FabricState → FabricState} (h : Replays b type payload f) : Effect b payload type f := by
  rcases applyRecord_uniform b type payload with herr | ⟨g, hg, hok⟩
  · obtain ⟨e, t, he, -⟩ := herr {}
    rw [h {}] at he
    cases he
  · have heq : f = g := by
      funext s
      have hs := h s
      rw [hok s, Prod.mk.injEq] at hs
      exact hs.2.symm
    rw [heq]
    exact hg

/-! ## Recoveries -/

/-- A sequence of records is refused whatever the state is, or has an effect. -/
theorem replay_uniform (b : Bounds) (records : List (RecordType × Bytes)) :
    Uniform (replay b records) (fun _ ↦ True) fun _ _ ↦ True := by
  induction records with
  | nil => exact .inr ⟨id, trivial, fun _ ↦ rfl⟩
  | cons record records ih =>
      unfold replay
      rcases applyRecord_uniform b record.1 record.2 with herr | ⟨f, -, hok⟩
      · refine .inl fun s ↦ ?_
        obtain ⟨e, t, he, -⟩ := herr s
        exact ⟨e, t, by rw [exec_bind, he], trivial⟩
      · rcases ih with herr | ⟨g, -, hg⟩
        · refine .inl fun s ↦ ?_
          obtain ⟨e, t, he, -⟩ := herr (f s)
          exact ⟨e, t, by rw [exec_bind, hok]; exact he, trivial⟩
        · exact .inr ⟨fun s ↦ g (f s), trivial, fun s ↦ by rw [exec_bind, hok]; exact hg (f s)⟩

/-- A sequence that is replayed has the effect of its first record and then of the rest. -/
theorem replay_cons_effect {b : Bounds} {record : RecordType × Bytes}
    {records : List (RecordType × Bytes)} {g : FabricState → FabricState}
    (h : ∀ s, (replay b (record :: records)).exec s = (.ok (), g s)) :
    ∃ f₁ f₂ : FabricState → FabricState, Replays b record.1 record.2 f₁ ∧
      (∀ s, (replay b records).exec s = (.ok (), f₂ s)) ∧ ∀ s, g s = f₂ (f₁ s) := by
  rcases applyRecord_uniform b record.1 record.2 with herr | ⟨f₁, -, hf₁⟩
  · obtain ⟨e, t, he, -⟩ := herr {}
    have hs := h {}
    unfold replay at hs
    rw [exec_bind, he] at hs
    cases hs
  · have hrest : ∀ s, (replay b records).exec (f₁ s) = (.ok (), g s) := fun s ↦ by
      have hs := h s
      change (applyRecord b record.1 record.2 >>= fun _ ↦ replay b records).exec s = _ at hs
      rwa [exec_bind, hf₁] at hs
    rcases replay_uniform b records with herr | ⟨f₂, -, hf₂⟩
    · obtain ⟨e, t, he, -⟩ := herr (f₁ {})
      rw [hrest] at he
      cases he
    · refine ⟨f₁, f₂, hf₁, hf₂, fun s ↦ ?_⟩
      have hs := hrest s
      rw [hf₂, Prod.mk.injEq] at hs
      exact hs.2.symm

theorem replay_append (b : Bounds) (records : List (RecordType × Bytes)) (type : RecordType)
    (payload : Bytes) (s : FabricState) :
    (replay b (records ++ [(type, payload)])).exec s =
      ((do replay b records; applyRecord b type payload : Replay Unit)).exec s := by
  induction records generalizing s with
  | nil =>
      rw [List.nil_append]
      unfold replay replay
      rw [exec_bind, exec_bind, exec_pure]
      simp only
      generalize (applyRecord b type payload).exec s = out
      obtain ⟨r, t⟩ := out
      cases r <;> rfl
  | cons record records ih =>
      rw [List.cons_append]
      unfold replay
      rw [exec_bind, exec_bind, exec_bind]
      generalize (applyRecord b record.1 record.2).exec s = out
      obtain ⟨r, t⟩ := out
      cases r with
      | error e => rfl
      | ok u =>
          simp only
          rw [ih, exec_bind]

/-- A log is readable, and a recovery makes the given state of the one it starts in. -/
def Log.Recovers (b : Bounds) (l : Log) (f : FabricState → FabricState) : Prop :=
  ∀ s, (Fabric.recover b l).exec s = (.ok (), f s)

namespace Log.Recovers

open Fabric

variable {b : Bounds} {l l' : Log} {f : FabricState → FabricState}

private theorem recover_none (h : l.snapshot = none) (s : FabricState) :
    (recover b l).exec s = (replay b l.records).exec s := by
  unfold recover
  simp only [h]

private theorem recover_some {envelope : Bytes} (h : l.snapshot = some envelope)
    (s : FabricState) :
    (recover b l).exec s =
      match openSnapshot b envelope with
      | .ok base => (replay b l.records).exec base
      | .error e => (.error e, s) := by
  unfold recover
  simp only [h]
  rw [exec_bind, exec_liftExcept]
  cases openSnapshot b envelope with
  | error e => rfl
  | ok base =>
      simp only
      rw [exec_bind, exec_set]

/-- One recovery that succeeds tells what all of them do. -/
theorem of_exec {s t : FabricState} (h : (recover b l).exec s = (.ok (), t)) :
    ∃ f, l.Recovers b f ∧ t = f s := by
  cases hs : l.snapshot with
  | none =>
      rw [recover_none hs] at h
      rcases replay_uniform b l.records with herr | ⟨f, -, hok⟩
      · obtain ⟨e, u, he, -⟩ := herr s
        rw [he] at h
        cases h
      · rw [hok] at h
        cases h
        exact ⟨f, fun x ↦ by rw [recover_none hs, hok], rfl⟩
  | some envelope =>
      rw [recover_some hs] at h
      cases ho : openSnapshot b envelope with
      | error e =>
          rw [ho] at h
          cases h
      | ok base =>
          rw [ho] at h
          exact ⟨fun _ ↦ t, fun x ↦ by rw [recover_some hs, ho]; exact h, rfl⟩

/-- A recovery without a snapshot is the replay of the records. -/
theorem replays (h : l.Recovers b f) (hs : l.snapshot = none) (s : FabricState) :
    (replay b l.records).exec s = (.ok (), f s) := by
  rw [← recover_none hs]
  exact h s

/-- A recovery from a snapshot forgets the state it starts in. -/
theorem forgets {envelope : Bytes} (h : l.Recovers b f) (hs : l.snapshot = some envelope)
    (s t : FabricState) : f s = f t := by
  have hst : (recover b l).exec s = (recover b l).exec t := by
    have hok := h s
    rw [recover_some hs] at hok ⊢
    rw [recover_some hs]
    cases ho : openSnapshot b envelope with
    | error e =>
        rw [ho] at hok
        cases hok
    | ok base => rfl
  rw [h s, h t, Prod.mk.injEq] at hst
  exact hst.2

theorem unique {g : FabricState → FabricState} (hf : l.Recovers b f) (hg : l.Recovers b g) :
    f = g := by
  funext s
  have heq := hf s
  rw [hg s, Prod.mk.injEq] at heq
  exact heq.2.symm

theorem same (h : l'.Recovers b f) (hl : l.Same l') : l.Recovers b f := by
  intro s
  have heq : (recover b l').exec s = (recover b l).exec s := by
    unfold recover
    rw [hl.1, hl.2]
  rw [← heq]
  exact h s

/-- The recovery of a log with a record more. -/
theorem append {type : RecordType} {payload : Bytes} (h : l'.Recovers b f)
    (hsnapshot : l'.snapshot = l.snapshot)
    (hrecords : l'.records = l.records ++ [(type, payload)]) :
    ∃ f₀ g, l.Recovers b f₀ ∧ Replays b type payload g ∧ ∀ s, f s = g (f₀ s) := by
  have hsplit : ∀ s, ∃ u, (recover b l).exec s = (.ok (), u) ∧
      (applyRecord b type payload).exec u = (.ok (), f s) := by
    intro s
    have hs := h s
    cases hsnap : l.snapshot with
    | none =>
        rw [recover_none (hsnapshot.trans hsnap), hrecords, replay_append] at hs
        obtain ⟨_, u, hu, ht⟩ := exec_bind_ok hs
        exact ⟨u, by rw [recover_none hsnap]; exact hu, ht⟩
    | some envelope =>
        rw [recover_some (hsnapshot.trans hsnap), hrecords] at hs
        cases ho : openSnapshot b envelope with
        | error e =>
            rw [ho] at hs
            cases hs
        | ok base =>
            rw [ho] at hs
            simp only at hs
            rw [replay_append] at hs
            obtain ⟨_, u, hu, ht⟩ := exec_bind_ok hs
            exact ⟨u, by rw [recover_some hsnap, ho]; exact hu, ht⟩
  rcases applyRecord_uniform b type payload with herr | ⟨g, -, hok⟩
  · obtain ⟨u, -, hu⟩ := hsplit {}
    obtain ⟨e, t, he, -⟩ := herr u
    rw [he] at hu
    cases hu
  · obtain ⟨u, hu, -⟩ := hsplit {}
    obtain ⟨f₀, hf₀, -⟩ := of_exec hu
    refine ⟨f₀, g, hf₀, hok, fun s ↦ ?_⟩
    obtain ⟨u, hu, ht⟩ := hsplit s
    rw [hf₀ s] at hu
    cases hu
    rw [hok, Prod.mk.injEq] at ht
    exact ht.2.symm

/-- The recovery of a log whose compaction installed a state. -/
theorem installed {s : FabricState} {envelope : Bytes} (h : l.Recovers b f)
    (hs : snapshotEnvelope b s = .ok envelope) (hl : l.Installed envelope) :
    ∀ x, f x = s.restored := by
  intro x
  have hx := h x
  rw [recover_some hl.1, hl.2] at hx
  cases ho : openSnapshot b envelope with
  | error e =>
      rw [ho] at hx
      cases hx
  | ok base =>
      rw [ho] at hx
      cases hx
      exact ((openSnapshot_eq_ok hs).mp ho).2

theorem settled {s : FabricState} (h : l'.Recovers b f) (hl : Settled b s l l') :
    l.Recovers b f ∨ ∀ x, f x = s.restored := by
  cases hl with
  | same hl => exact .inl (h.same hl)
  | compacted envelope hs hl => exact .inr (h.installed hs hl)

theorem recorded {s : FabricState} {type : RecordType} {payload : Bytes} (h : l'.Recovers b f)
    (hl : Recorded b s type payload l l') :
    ∃ f₀ g, (l.Recovers b f₀ ∨ ∀ x, f₀ x = s.restored) ∧ Replays b type payload g ∧
      ∀ x, f x = g (f₀ x) := by
  obtain ⟨base, hbase, hsnapshot, hrecords⟩ := hl
  obtain ⟨f₀, g, hf₀, hg, hf⟩ := h.append hsnapshot hrecords
  exact ⟨f₀, g, hf₀.settled hbase, hg, hf⟩

end Log.Recovers

/-! ## The effects of written records -/

/-- What a payload of an assignment carries is that assignment. -/
theorem Payload.carries {b : Bounds} {v v' : RecordedAssignment} {type : RecordType}
    {payload : Bytes} (h : Payload b v type payload) (h' : Carries b payload v' type) :
    v' = v := by
  cases h with
  | created h =>
      cases h' with
      | created h' => exact ((Writer.decode_eq_ok (roundTrip_recordedAssignment v) h).mp h').2
  | transitioned h =>
      cases h' with
      | transitioned h' =>
          exact ((Writer.decode_eq_ok (roundTrip_recordedAssignment v) h).mp h').2
  | effect h =>
      cases h' with
      | effect h' =>
          have heq := ((Writer.decode_eq_ok (roundTrip_recordedEffect _) h).mp h').2
          cases v
          cases v'
          simp only [RecordedEffect.mk.injEq] at heq
          obtain ⟨-, rfl, rfl, rfl⟩ := heq
          rfl

/-- The effect of a stored assignment is to store it. -/
theorem Payload.effect_eq {b : Bounds} {v : RecordedAssignment} {type : RecordType}
    {payload : Bytes} {f : FabricState → FabricState} (h : Payload b v type payload)
    (hf : Effect b payload type f) :
    ∃ response t, Answers b v response ∧ ∀ s, f s = s.storing b v response t := by
  cases hf with
  | assignment hv hr =>
      obtain rfl := h.carries hv
      exact ⟨_, _, hr, fun _ ↦ rfl⟩
  | epoch _ => cases h
  | request _ => cases h
  | withdrawal _ _ _ => cases h
  | evidence htype _ => cases h <;> simp at htype

/-- A record that carries no assignment leaves the assignments. -/
theorem Effect.assignments {b : Bounds} {type : RecordType} {payload : Bytes}
    {f : FabricState → FabricState} (hf : Effect b payload type f) :
    (∃ v, Carries b payload v type ∧
        ∀ s, (f s).assignments = s.assignments.insert v.record) ∨
      ((∀ v, ¬ Carries b payload v type) ∧ ∀ s, (f s).assignments = s.assignments) := by
  cases hf with
  | assignment hv hr => exact .inl ⟨_, hv, fun s ↦ storing_assignments _ _ _ _ _⟩
  | epoch _ =>
      refine .inr ⟨fun v hv ↦ ?_, fun s ↦ rfl⟩
      cases hv
  | request _ =>
      refine .inr ⟨fun v hv ↦ ?_, fun s ↦ recordIdempotency_assignments _ _ _ _⟩
      cases hv
  | withdrawal _ hf _ =>
      refine .inr ⟨fun v hv ↦ ?_, fun s ↦ by rw [hf s]⟩
      cases hv
  | evidence htype hf =>
      refine .inr ⟨fun v hv ↦ ?_, fun s ↦ by rw [hf s]⟩
      cases hv <;> simp at htype

end OffloadFabric
