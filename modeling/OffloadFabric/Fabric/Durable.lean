import OffloadFabric.Fabric.Replay
import OffloadFabric.Lib.Settles

/-!
# What of a state is durable

What a log gives back of a state, by kind and identity: functions, topology, policy,
capabilities, grants with their revocations, the marks of the sources and the assignments.
A record that is replayed settles these values whatever the state is, and a delivery is replayed
as it was applied (`src/fabric.cpp:1818-2010,2836-3376`).
-/

namespace OffloadFabric

open Lib Lib.Fallible Lib.Coder FabricState Wire

/-- A mark but for the floor of the last restart. -/
def SourceState.unfloored (s : SourceState) : SourceState := { s with restartFloor := 0 }

/-- What of a state is durable, by kind and identity. -/
inductive DurableKey where
  | function (id : FunctionId)
  | topology
  | policy
  | capability (k : CapabilityKey)
  | grant (id : AuthorityId)
  | mark (k : SourceKey)
  | assignment (id : AssignmentId)

namespace DurableKey

/-- The values under a key. -/
abbrev Value : DurableKey → Type
  | function _ => Option FunctionDescriptor
  | topology => Option TopologySnapshot
  | policy => Option PolicySnapshot
  | capability _ => Option CapabilityRecord
  | grant _ => Option AuthorityGrant
  | mark _ => Option SourceState
  | assignment _ => Option AssignmentRecord

/-- What a replayed withdrawal does to a value. -/
def correct : (k : DurableKey) → k.Value → k.Value
  | grant _ => Option.map fun g ↦ { g with revoked := true }
  | function _ | topology | policy | capability _ | mark _ | assignment _ => id

theorem correct_correct (k : DurableKey) (w : k.Value) : k.correct (k.correct w) = k.correct w := by
  cases k with
  | grant id => cases w <;> rfl
  | _ => rfl

end DurableKey

namespace FabricState

/-- The value a state holds under a durable key. -/
def durable (k : DurableKey) (s : FabricState) : k.Value :=
  match k with
  | .function id => s.functions.find? id
  | .topology => s.topology
  | .policy => s.policy
  | .capability k => s.capabilities.find? k
  | .grant id => (s.authority.find? id).map AuthorityGrant.unused
  | .mark k => (s.sources[k]?).map SourceState.unfloored
  | .assignment id => s.assignments.find? id

/-! ## What leaves the durable values -/

private theorem unused_counted (t : Table AuthorityGrant) (uses : AuthorityId → UInt64)
    (id : AuthorityId) :
    ((t.mapValues (fun g ↦ { g with used := uses g.id }) fun _ ↦ rfl).find? id).map
      AuthorityGrant.unused = (t.find? id).map AuthorityGrant.unused := by
  rw [Table.find?_mapValues, Option.map_map]
  rfl

/-- Storing an assignment moves the value of its identifier only. -/
theorem durable_insertAssignment (s : FabricState) (r : AssignmentRecord) (k : DurableKey) :
    (s.insertAssignment r).durable k =
      ({ s with assignments := s.assignments.insert r } : FabricState).durable k := by
  rw [insertAssignment_eq]
  cases k with
  | grant id => exact unused_counted s.authority (grantUses (s.assignments.insert r)) id
  | _ => rfl

@[simp] theorem durable_recordIdempotency (s : FabricState) (b : Bounds) (id : RequestId)
    (e : IdempotencyEntry) (k : DurableKey) :
    (s.recordIdempotency b id e).durable k = s.durable k := by
  rw [recordIdempotency_eq]
  cases k <;> rfl

theorem durable_storing (s : FabricState) (b : Bounds) (v : RecordedAssignment)
    (response : Bytes) (t : Micros) (k : DurableKey) :
    (s.storing b v response t).durable k =
      ({ s with assignments := s.assignments.insert v.record } : FabricState).durable k :=
  (durable_recordIdempotency _ _ _ _ _).trans (durable_insertAssignment s v.record k)

@[simp] theorem durable_rebuildIndexes (s : FabricState) (k : DurableKey) :
    s.rebuildIndexes.durable k = s.durable k := by
  rw [rebuildIndexes_eq]
  cases k with
  | grant id => exact unused_counted s.authority (grantUses s.assignments) id
  | _ => rfl

@[simp] theorem durable_restarting (s : FabricState) (counter : UInt64) (boot : BootId)
    (k : DurableKey) : (s.restarting counter boot).durable k = s.durable k := by
  rw [← durable_rebuildIndexes s]
  cases k <;> rfl

@[simp] theorem durable_applyRecoveryInvariants (s : FabricState) (k : DurableKey) :
    s.applyRecoveryInvariants.durable k = s.durable k := by
  cases k with
  | mark k =>
      change ((s.sources.map _)[k]?).map _ = _
      rw [Std.ExtTreeMap.getElem?_map, Option.map_map]
      rfl
  | _ => rfl

@[simp] theorem durable_restored (s : FabricState) (k : DurableKey) :
    s.restored.durable k = s.durable k := by
  cases k <;> rfl

@[simp] theorem durable_pushReassignment (s : FabricState) (b : Bounds) (key : ExclusivityKey)
    (t : Micros) (k : DurableKey) : (s.pushReassignment b key t).durable k = s.durable k := by
  cases k <;> rfl

theorem Issue.durable {s t : FabricState} {i : Issued} (h : s.Issue i t) (k : DurableKey) :
    t.durable k = s.durable k := by
  cases h <;> cases k <;> rfl

/-- A mark moves the value of its source and domain only. -/
theorem durable_markSource (s : FabricState) (source : SourceId) (domain : EvidenceDomain)
    (sequence : UInt64) (digest : Digest) (k : SourceKey) :
    (s.markSource source domain sequence digest).durable (.mark k) =
      if SourceKey.mk source domain = k then
        some { lastSequence := sequence, lastDigest := digest, seen := true }
      else (s.sources[k]?).map SourceState.unfloored := by
  change ((s.sources.insert _ _)[k]?).map _ = _
  rw [Std.ExtTreeMap.getElem?_insert]
  simp only [Std.LawfulEqCmp.compare_eq_iff_eq]
  split <;> rfl

end FabricState

/-! ## What a replayed record does to the durable values -/

/-- A replayed record read its payload. -/
private theorem replays_read {α : Type} {b : Bounds} {d : Reader α} {payload : Bytes}
    {g : α → Replay Unit} {f : FabricState → FabricState}
    (h : ∀ s, (readPayload b d payload >>= g).exec s = (.ok (), f s)) :
    ∃ a, d.decode b.maxTextBytes.toNat payload = .ok a ∧ ∀ s, (g a).exec s = (.ok (), f s) := by
  unfold readPayload at h
  cases hd : d.decode b.maxTextBytes.toNat payload with
  | error e =>
      have := h {}
      rw [hd, exec_bind, exec_liftExcept] at this
      cases this
  | ok a =>
      refine ⟨a, rfl, fun s ↦ ?_⟩
      have := h s
      rwa [hd, exec_bind, exec_liftExcept] at this

private theorem replays_modify {f g : FabricState → FabricState}
    (h : ∀ s, (modify g : Replay Unit).exec s = (.ok (), f s)) : f = g := by
  funext s
  have := h s
  rw [exec_modify, Prod.mk.injEq] at this
  exact this.2.symm


/-- The records that are replayed without an effect on the state. -/
theorem Replays.eq_id {b : Bounds} {type : RecordType} {payload : Bytes}
    {f : FabricState → FabricState} (h : Replays b type payload f)
    (htype : type = .scopeReleased ∨ type = .snapshotBase ∨ type = .storeSealed) :
    f = fun s ↦ s := by
  funext s
  have hs : ((.ok (), s) : Except Error Unit × FabricState) = (.ok (), f s) := by
    rw [← h s]
    rcases htype with rfl | rfl | rfl <;> rfl
  exact (Prod.mk.inj hs).2.symm

/-- A replayed withdrawal revokes its grant, whatever it answers. -/
private theorem replayWithdrawal_durable {b : Bounds} {w : RecordedWithdrawal} {s t : FabricState}
    (h : (replayWithdrawal b w).exec s = (.ok (), t)) (k : DurableKey) :
    t.durable k = (s.withdrawn w.authority).durable k := by
  unfold replayWithdrawal at h
  obtain ⟨_, u, hu, ht⟩ := exec_bind_ok h
  obtain rfl : u = s.withdrawn w.authority := by
    rw [exec_modify, Prod.mk.injEq] at hu
    exact hu.2.symm
  split at ht
  · split at ht
    · rw [exec_modify, Prod.mk.injEq] at ht
      rw [← ht.2, durable_recordIdempotency]
    · rw [exec_pure, Prod.mk.injEq] at ht
      rw [ht.2]
  · rw [exec_pure, Prod.mk.injEq] at ht
    rw [ht.2]

/-- A replayed withdrawal revokes the grant it names and no other. -/
theorem FabricState.find?_withdrawn (s : FabricState) (id id' : AuthorityId) :
    (s.withdrawn id).authority.find? id' =
      if id = id' then (s.authority.find? id').map fun g ↦ { g with revoked := true }
      else s.authority.find? id' := by
  unfold withdrawn
  simp only
  by_cases hid : id = id'
  · subst hid
    rw [if_pos rfl]
    cases hg : s.authority.find? id with
    | none => exact hg
    | some g =>
        have hkey : g.id = id := Table.key_of_find? hg
        simp only
        rw [Table.find?_insert, key_authority, if_pos hkey]
        rfl
  · rw [if_neg hid]
    cases hg : s.authority.find? id with
    | none => rfl
    | some g =>
        have hkey : g.id = id := Table.key_of_find? hg
        exact Table.find?_insert_of_ne fun heq ↦ hid (hkey.symm.trans heq)

/-- A withdrawal corrects the grant it names. -/
private theorem settles_withdrawn (id : AuthorityId) (k : DurableKey) :
    Settles (durable k) k.correct (·.withdrawn id) := by
  cases k with
  | grant id' =>
      have hfind : ∀ s : FabricState, (s.withdrawn id).durable (.grant id') =
          (if id = id' then (s.authority.find? id').map fun g ↦ { g with revoked := true }
            else s.authority.find? id').map AuthorityGrant.unused := fun s ↦ by
        rw [← find?_withdrawn]
        rfl
      by_cases hid : id = id'
      · refine .corrects fun s ↦ ?_
        rw [hfind, if_pos hid]
        change _ = ((s.authority.find? id').map _).map _
        rw [Option.map_map, Option.map_map]
        rfl
      · refine .keeps fun s ↦ ?_
        rw [hfind, if_neg hid]
        rfl
  | _ => exact .keeps fun _ ↦ rfl

/-- The records that carry nothing durable. -/
theorem Replays.durable_eq {b : Bounds} {type : RecordType} {payload : Bytes}
    {f : FabricState → FabricState} (h : Replays b type payload f)
    (htype : type ∈ [.epochStarted, .reassignmentRecorded, .requestRecorded, .scopeReleased,
      .snapshotBase, .storeSealed]) (s : FabricState) (k : DurableKey) :
    (f s).durable k = s.durable k := by
  cases type with
  | epochStarted =>
      obtain ⟨e, -, hf⟩ := replays_read h
      rw [replays_modify hf]
      cases k <;> rfl
  | reassignmentRecorded =>
      obtain ⟨a, -, hf⟩ := replays_read h
      rw [replays_modify hf]
      cases k <;> rfl
  | requestRecorded =>
      obtain ⟨a, -, hf⟩ := replays_read h
      rw [replays_modify hf]
      exact durable_recordIdempotency _ _ _ _ _
  | scopeReleased => rw [h.eq_id (.inl rfl)]
  | snapshotBase => rw [h.eq_id (.inr (.inl rfl))]
  | storeSealed => rw [h.eq_id (.inr (.inr rfl))]
  | _ => simp at htype

/-- Every record that can be replayed settles every durable value. -/
theorem Replays.settles {b : Bounds} {type : RecordType} {payload : Bytes}
    {f : FabricState → FabricState} (h : Replays b type payload f) (k : DurableKey) :
    Settles (durable k) k.correct f := by
  have hstored : ∀ {v response t}, f = (fun s ↦ s.storing b v response t) →
      Settles (durable k) k.correct f := by
    rintro v response t rfl
    cases k with
    | assignment id =>
        refine .of_ite (p := v.record.id = id) (some v.record) fun s ↦ ?_
        rw [durable_storing]
        exact Table.find?_insert s.assignments v.record id
    | _ => exact .keeps fun s ↦ durable_storing s b v response t _
  cases type with
  | functionRegistered =>
      obtain ⟨a, -, hf⟩ := replays_read h
      rw [replays_modify hf]
      cases k with
      | function id =>
          exact .of_ite (p := key a = id) (some a) fun s ↦ Table.find?_insert s.functions a id
      | _ => exact .keeps fun _ ↦ rfl
  | topologyIngested =>
      obtain ⟨a, -, hf⟩ := replays_read h
      rw [replays_modify hf]
      cases k with
      | topology => exact .sets (some a) fun _ ↦ rfl
      | mark k => exact .of_ite _ fun s ↦ durable_markSource s _ _ _ _ k
      | _ => exact .keeps fun _ ↦ rfl
  | capabilityIngested =>
      obtain ⟨a, -, hf⟩ := replays_read h
      rw [replays_modify hf]
      cases k with
      | capability k => exact .of_or _ fun s ↦ Table.find?_foldl_insert a.records s.capabilities k
      | mark k => exact .of_ite _ fun s ↦ durable_markSource s _ _ _ _ k
      | _ => exact .keeps fun _ ↦ rfl
  | policyIngested =>
      obtain ⟨a, -, hf⟩ := replays_read h
      rw [replays_modify hf]
      cases k with
      | policy => exact .sets (some a) fun _ ↦ rfl
      | mark k => exact .of_ite _ fun s ↦ durable_markSource s _ _ _ _ k
      | _ => exact .keeps fun _ ↦ rfl
  | observationsIngested =>
      obtain ⟨a, -, hf⟩ := replays_read h
      rw [replays_modify hf]
      cases k with
      | mark k => exact .of_ite _ fun s ↦ durable_markSource s _ _ _ _ k
      | _ => exact .keeps fun _ ↦ rfl
  | authorityGranted =>
      obtain ⟨a, -, hf⟩ := replays_read h
      rw [replays_modify hf]
      cases k with
      | grant id =>
          refine .of_ite (p := key a = id) (some a.unused) fun s ↦ ?_
          change ((s.authority.insert a).find? id).map _ = _
          rw [Table.find?_insert]
          split <;> rfl
      | mark k => exact .of_ite _ fun s ↦ durable_markSource s _ _ _ _ k
      | _ => exact .keeps fun _ ↦ rfl
  | authorityWithdrawn =>
      obtain ⟨w, -, hf⟩ := replays_read h
      exact (settles_withdrawn w.authority k).of_eq fun s ↦ replayWithdrawal_durable (hf s) k
  | assignmentCreated | assignmentTransitioned | effectRecorded =>
      cases h.effect with
      | assignment hv hr => exact hstored rfl
      | evidence htype _ => simp at htype
  | _ => exact .keeps fun s ↦ h.durable_eq (by decide) s k

/-! ## Deliveries -/

/-- The digest of a payload is that of its canonical encoding, whatever the limits are. -/
theorem digestWith_eq_ok {w : Writer} [Extends w] {limit limit' : Nat} {digest : Digest}
    {p : Bytes} (h : digestWith w limit = .ok digest) (hp : w.encode limit' = .ok p) :
    digest = sha256 p := by
  obtain ⟨_, -, h⟩ := bind_eq_ok.mp h
  obtain ⟨q, hq, h⟩ := bind_eq_ok.mp h
  cases h
  rw [Writer.encode_unique hq hp]

/-- A payload that was written and is replayed was read back. -/
private theorem replays_written {α : Type} {b : Bounds} {w : Writer} {limit : Nat} {d : Reader α}
    {a : α} {P : Prop} {payload : Bytes} {h : α → FabricState → FabricState}
    {f : FabricState → FabricState}
    (hround : RoundTrip w limit d b.maxTextBytes.toNat a P) (hw : w.encode limit = .ok payload)
    (hf : ∀ s, (readPayload b d payload >>= fun a ↦ (modify (h a) : Replay Unit)).exec s =
      (.ok (), f s)) : f = h a := by
  obtain ⟨a', ha, hf⟩ := replays_read hf
  obtain ⟨-, rfl⟩ := (Writer.decode_eq_ok hround hw).mp ha
  exact replays_modify hf

/-- A delivered record is replayed as it was applied. -/
theorem Op.delivery_durable {c : FabricConfig} {now : ClockReadings} {s : FabricState} {op : Op}
    {d : Delivery} {payload : Bytes} {g : FabricState → FabricState}
    (hd : op.delivery c now s = .ok (some d))
    (hp : d.payload.encode c.bounds.maxRecordBytes.toNat = .ok payload)
    (hg : Replays c.bounds d.type payload g) (k : DurableKey) :
    d.next.durable k = (g s).durable k := by
  cases Op.delivery_accepts hd with
  | function => rw [replays_written (roundTrip_function _) hp hg]
  | topology _ hdigest _ =>
      rw [replays_written (roundTrip_topology _) hp hg, digestWith_eq_ok hdigest hp]
      cases k <;> rfl
  | capabilities _ hdigest _ =>
      rw [replays_written (roundTrip_capabilityReport _) hp hg, digestWith_eq_ok hdigest hp]
      cases k <;> rfl
  | policy _ hdigest _ =>
      rw [replays_written (roundTrip_policy _) hp hg, digestWith_eq_ok hdigest hp]
      cases k <;> rfl
  | observations _ hdigest _ =>
      rw [replays_written (roundTrip_observationReport _) hp hg, digestWith_eq_ok hdigest hp]
      cases k <;> rfl
  | grant _ hdigest _ _ =>
      rw [replays_written (roundTrip_authority _) hp hg, digestWith_eq_ok hdigest hp]
      cases k <;> rfl
  | withdrawal hfind _ =>
      obtain ⟨w, hw, hg⟩ := replays_read hg
      obtain ⟨-, rfl⟩ := (Writer.decode_eq_ok (roundTrip_recordedWithdrawal _) hp).mp hw
      rw [replayWithdrawal_durable (hg s) k]
      unfold withdrawn
      rw [hfind]

/-! ## Recoveries -/

/-- Every recovery settles every durable value. -/
theorem Log.Recovers.settles {b : Bounds} {l : Log} {f : FabricState → FabricState}
    (h : l.Recovers b f) (k : DurableKey) : Settles (durable k) k.correct f := by
  have hreplay : ∀ (records : List (RecordType × Bytes)) (g : FabricState → FabricState),
      (∀ s, (replay b records).exec s = (.ok (), g s)) → Settles (durable k) k.correct g := by
    intro records
    induction records with
    | nil => exact fun g hg ↦ .keeps fun s ↦ by rw [← (Prod.mk.inj (hg s)).2]
    | cons record records ih =>
        intro g hg
        obtain ⟨f₁, f₂, hf₁, hf₂, heq⟩ := replay_cons_effect hg
        have hcomp := (ih f₂ hf₂).comp k.correct_correct (Replays.settles hf₁ k)
        exact hcomp.of_eq fun s ↦ by rw [heq]
  cases hs : l.snapshot with
  | none => exact hreplay l.records f (h.replays hs)
  | some envelope => exact .sets ((f {}).durable k) fun s ↦ by rw [h.forgets hs s {}]

end OffloadFabric
