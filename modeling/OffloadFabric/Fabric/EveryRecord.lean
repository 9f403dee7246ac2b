import OffloadFabric.Fabric.Steps
import OffloadFabric.Fabric.Replay

/-!
# What holds of every stored assignment

An assignment that a state holds was stored by a change of some step, or read back from a log
that this runtime wrote. So what every stored assignment has at the moment it is stored, every
assignment of every state has, however a recovery ends.
-/

namespace OffloadFabric

open Lib Lib.Fallible FabricState Wire

/-- Every assignment of a state has the property. -/
def FabricState.Every (E : AssignmentRecord → Prop) (s : FabricState) : Prop :=
  ∀ r ∈ s.assignments.values, E r

/-- Every assignment a log may give back has the property. -/
structure Log.Every (b : Bounds) (E : AssignmentRecord → Prop) (l : Log) : Prop where
  snapshot : ∀ envelope, l.snapshot = some envelope →
    ∀ s, Fabric.openSnapshot b envelope = .ok s → s.Every E
  records : ∀ type payload v, (type, payload) ∈ l.records → Carries b payload v type →
    E v.record

/-- Every assignment of a runtime, in memory or in its log, has the property. -/
structure Impl.Every (c : FabricConfig) (E : AssignmentRecord → Prop) (m : Impl) : Prop where
  memory : m.state.Every E
  log : m.log.Every c.bounds E

namespace FabricState.Every

variable {E F : AssignmentRecord → Prop} {s t : FabricState}

theorem mono (h : s.Every E) (hEF : ∀ r, E r → F r) : s.Every F := fun r hr ↦ hEF r (h r hr)

theorem of_eq (h : s.Every E) (ht : t.assignments = s.assignments) : t.Every E := by
  unfold FabricState.Every
  rw [ht]
  exact h

theorem insert {r : AssignmentRecord} (h : s.Every E) (hr : E r)
    (ht : t.assignments = s.assignments.insert r) : t.Every E := by
  intro x hx
  rw [ht] at hx
  have hfind := Table.mem_values.mp hx
  by_cases hid : r.id = x.id
  · rw [key_assignment, ← hid] at hfind
    have hself := Table.find?_insert_self s.assignments r
    rw [key_assignment, hfind] at hself
    cases hself
    exact hr
  · rw [Table.find?_insert_of_ne hid] at hfind
    exact h x (Table.mem_values.mpr hfind)

theorem find? (h : s.Every E) {id : AssignmentId} {r : AssignmentRecord}
    (hr : s.assignments.find? id = some r) : E r := h r (Table.mem_values_of_find? hr)

end FabricState.Every

namespace Log.Every

variable {b : Bounds} {E F : AssignmentRecord → Prop} {l l' : Log} {s : FabricState}

theorem mono (h : l.Every b E) (hEF : ∀ r, E r → F r) : l.Every b F where
  snapshot envelope he t ht := (h.snapshot envelope he t ht).mono hEF
  records type payload v hmem hv := hEF _ (h.records type payload v hmem hv)

theorem same (h : l.Every b E) (hl : l.Same l') : l'.Every b E where
  snapshot envelope he := h.snapshot envelope (hl.1 ▸ he)
  records type payload v hmem hv := h.records type payload v (hl.2 ▸ hmem) hv

theorem settled (h : l.Every b E) (hs : s.Every E) (hl : Settled b s l l') :
    l'.Every b E := by
  cases hl with
  | same hl => exact h.same hl
  | compacted envelope he hl =>
      refine ⟨fun envelope' he' t ht ↦ ?_, fun type payload v hmem _ ↦ ?_⟩
      · rw [hl.1] at he'
        cases he'
        obtain ⟨-, rfl⟩ := (Fabric.openSnapshot_eq_ok he).mp ht
        exact hs.of_eq rfl
      · rw [hl.2] at hmem
        cases hmem

theorem recorded {type : RecordType} {payload : Bytes} (h : l.Every b E) (hs : s.Every E)
    (hl : Recorded b s type payload l l') (hv : ∀ v, Carries b payload v type → E v.record) :
    l'.Every b E := by
  obtain ⟨base, hbase, hsnapshot, hrecords⟩ := hl
  have hb := h.settled hs hbase
  refine ⟨fun envelope he ↦ hb.snapshot envelope (hsnapshot ▸ he),
    fun type' payload' v hmem hcarries ↦ ?_⟩
  rw [hrecords, List.mem_append, List.mem_singleton] at hmem
  rcases hmem with hmem | heq
  · exact hb.records type' payload' v hmem hcarries
  · cases heq
    exact hv v hcarries

theorem commits {c : FabricConfig} {m : Impl} {type : RecordType} {payload : Bytes}
    (h : m.log.Every c.bounds E) (hs : m.state.Every E) (hl : Commits c m type payload l')
    (hv : ∀ v, Carries c.bounds payload v type → E v.record) : l'.Every c.bounds E := by
  unfold Commits at hl
  split at hl
  · exact h.recorded hs hl hv
  · exact hl ▸ h

/-- A replayed record stores what it carries, also where its replay fails. -/
private theorem applyRecord_every {type : RecordType} {payload : Bytes} (hs : s.Every E)
    (hv : ∀ v, Carries b payload v type → E v.record) :
    ((applyRecord b type payload).exec s).2.Every E := by
  rcases applyRecord_uniform b type payload with herr | ⟨f, hf, hok⟩
  · obtain ⟨e, t, he, hstop⟩ := herr s
    rw [he]
    rcases hstop with rfl | ⟨v, hcarries, rfl⟩
    · exact hs
    · exact hs.insert (hv v hcarries) (insertAssignment_assignments s v.record)
  · rw [hok]
    rcases hf.assignments with ⟨v, hcarries, heq⟩ | ⟨-, heq⟩
    · exact hs.insert (hv v hcarries) (heq s)
    · exact hs.of_eq (heq s)

private theorem replay_every {records : List (RecordType × Bytes)} (hs : s.Every E)
    (hv : ∀ type payload v, (type, payload) ∈ records → Carries b payload v type →
      E v.record) : ((replay b records).exec s).2.Every E := by
  induction records generalizing s with
  | nil => exact hs
  | cons record records ih =>
      have hfirst := applyRecord_every (b := b) hs fun v hcarries ↦
        hv record.1 record.2 v List.mem_cons_self hcarries
      unfold replay
      rw [exec_bind]
      generalize (applyRecord b record.1 record.2).exec s = out at hfirst
      obtain ⟨r, t⟩ := out
      cases r with
      | error e => exact hfirst
      | ok u =>
          exact ih hfirst fun type payload v hmem ↦
            hv type payload v (List.mem_cons_of_mem _ hmem)

/-- A recovery gives back what the log holds, also where it stops. -/
theorem recover (h : l.Every b E) (hs : s.Every E) :
    ((Fabric.recover b l).exec s).2.Every E := by
  unfold Fabric.recover
  cases hsnapshot : l.snapshot with
  | none => exact replay_every hs h.records
  | some envelope =>
      simp only
      rw [exec_bind, exec_liftExcept]
      cases ho : Fabric.openSnapshot b envelope with
      | error e => exact hs
      | ok base =>
          simp only
          rw [exec_bind, exec_set]
          exact replay_every (h.snapshot envelope hsnapshot base ho) h.records

end Log.Every

/-- A step stores an assignment in a state of its course. -/
structure Step.Storing (c : FabricConfig) (m : Impl) (st : Step) (s : FabricState)
    (v : RecordedAssignment) : Prop where
  stores : Stores c st.now m.state s st.op v
  exists_course : ∃ m₁ m₂, m₁.state = s ∧ m₂.state.assignments = s.assignments.insert v.record ∧
    Relation.ReflTransGen (Change c st (m.facing st.faults)) (m.facing st.faults) m₁ ∧
    Relation.ReflTransGen (Change c st (m.facing st.faults)) m₂ (st.next c m)

namespace Impl.Every

variable {c : FabricConfig} {E F : AssignmentRecord → Prop} {m m' : Impl}

theorem mono (h : m.Every c E) (hEF : ∀ r, E r → F r) : m.Every c F :=
  ⟨h.memory.mono hEF, h.log.mono hEF⟩

theorem facing (h : m.Every c E) (faults : List Fault) : (m.facing faults).Every c E :=
  ⟨h.memory, h.log.same (m.facing_same faults)⟩

/-- A change keeps the property when what it stores has it. -/
theorem change {st : Step} {m₀ : Impl} (h : m.Every c E) (hc : Change c st m₀ m m')
    (hstores : ∀ v, Stores c st.now m₀.state m.state st.op v →
      m'.state.assignments = m.state.assignments.insert v.record → E v.record) :
    m'.Every c E := by
  cases hc with
  | settled hl => exact ⟨h.memory, h.log.settled h.memory hl⟩
  | delivered hm hd hp hl =>
      obtain ⟨htype, hnext⟩ := Op.delivery_frame hd
      refine ⟨h.memory.of_eq (by rw [hnext]), h.log.commits h.memory hl fun v hv ↦ ?_⟩
      exact absurd htype (by rw [hv.isEvidence]; decide)
  | stored hmiss hv hp hr hl =>
      have hE := hstores _ hv (storing_assignments _ _ _ _ _)
      refine ⟨h.memory.insert hE (storing_assignments _ _ _ _ _),
        h.log.commits h.memory hl fun v' hv' ↦ ?_⟩
      rw [hp.carries hv']
      exact hE
  | refused hmiss hid hk hr hp hl =>
      refine ⟨h.memory.of_eq (recordIdempotency_assignments _ _ _ _),
        h.log.commits h.memory hl fun v hv ↦ ?_⟩
      cases hv
  | stamped => exact ⟨h.memory.of_eq rfl, h.log⟩
  | noted hp hl =>
      refine ⟨h.memory, h.log.commits h.memory hl fun v hv ↦ ?_⟩
      cases hv
  | issued hop hi => exact ⟨h.memory.of_eq (by cases hi <;> rfl), h.log⟩
  | sealed hop hsnapshot hrecords =>
      have hl : Recorded c.bounds m.state .storeSealed _ m.log _ :=
        ⟨m.log, .same (Log.Same.refl _), hsnapshot, hrecords⟩
      refine ⟨h.memory, h.log.recorded h.memory hl fun v hv ↦ ?_⟩
      cases hv
  | crashed hop => exact ⟨fun r hr ↦ by simp at hr, h.log⟩
  | _ => exact ⟨h.memory, h.log⟩

theorem suspends {now : Micros} (h : m.Every c E) (hc : Suspends c now m m')
    (hE : ∀ r, E r → r.state.isLive = true → r.state ≠ .suspended →
      E (r.enter c.bounds .suspended .restartAuthorityReset now)) : m'.Every c E := by
  cases hc with
  | settled hl => exact ⟨h.memory, h.log.settled h.memory hl⟩
  | stored hfind hlive hne hr hp hl =>
      have hnew := hE _ (h.memory.find? hfind) hlive hne
      rw [← hr] at hnew
      refine ⟨h.memory.insert hnew (insertAssignment_assignments _ _),
        h.log.commits h.memory hl fun v' hv' ↦ ?_⟩
      rw [hp.carries hv']
      exact hnew

theorem start {now : Micros} {boot : BootId} (h : m.Every c E) (hs : Start c now boot m m')
    (hE : ∀ r, E r → r.state.isLive = true → r.state ≠ .suspended →
      E (r.enter c.bounds .suspended .restartAuthorityReset now)) : m'.Every c E := by
  have hrecovered : ∀ {l res s}, m.log.Same l →
      (Fabric.recover c.bounds l).exec m.state = (res, s) → s.Every E := by
    intro l res s hl hr
    have hrecover := (h.log.same hl).recover h.memory
    rw [hr] at hrecover
    exact hrecover
  have hrebuilt : ∀ {s : FabricState}, s.Every E → s.rebuildIndexes.Every E := fun hs ↦
    hs.of_eq (rebuildIndexes_assignments _)
  have hrestarting : ∀ {s : FabricState} {counter : UInt64}, s.Every E →
      (s.restarting counter boot).Every E := fun hs ↦ (hrebuilt hs).of_eq rfl
  have hrestarted : ∀ {m₁ : Impl}, Restarted c boot m m₁ → m₁.Every c E := by
    rintro m₁ hr
    obtain ⟨l, s, counter, payload, l', hl, hrec, hn, hp, hcommit, rfl⟩ := hr.exists_recovery
    have hstate : (s.restarting counter boot).Every E := hrestarting (hrecovered hl hrec)
    refine ⟨hstate.of_eq rfl, (h.log.same hl).recorded hstate hcommit fun v hv ↦ ?_⟩
    cases hv
  have hsuspends : ∀ {m₁ m₂ : Impl}, m₁.Every c E →
      Relation.ReflTransGen (Suspends c now) m₁ m₂ → m₂.Every c E := by
    intro m₁ m₂ h₁ hr
    induction hr with
    | refl => exact h₁
    | tail _ hc ih => exact ih.suspends hc hE
  cases hs with
  | refused hl => exact ⟨h.memory, h.log.same hl⟩
  | bare _ _ => exact ⟨h.memory.of_eq rfl, h.log⟩
  | unreadable _ _ hl hr => exact ⟨hrecovered hl hr, h.log.same hl⟩
  | exhausted _ _ hl hr => exact ⟨hrebuilt (hrecovered hl hr), h.log.same hl⟩
  | unrecorded _ _ hl hr hn hsettled =>
      exact ⟨hrestarting (hrecovered hl hr),
        (h.log.same hl).settled (hrestarting (hrecovered hl hr)) hsettled⟩
  | suspending _ hr hs => exact hsuspends (hrestarted hr) hs
  | launched _ hr hs _ =>
      have hm := hsuspends (hrestarted hr) hs
      exact ⟨hm.memory, hm.log⟩

/-- A step keeps the property when every assignment it stores has it. -/
theorem next (h : m.Every c E) (st : Step) (hEF : ∀ r, E r → F r)
    (hstores : m.running = true → ∀ s v, s.Every F → st.Storing c m s v → F v.record)
    (hF : ∀ boot, st.op = .start boot → ∀ r, F r → r.state.isLive = true →
      r.state ≠ .suspended →
      F (r.enter c.bounds .suspended .restartAuthorityReset (st.now 0))) :
    (st.next c m).Every c F := by
  have hfacing := (h.mono hEF).facing st.faults
  by_cases hstart : ∃ boot, st.op = .start boot
  · obtain ⟨boot, hop⟩ := hstart
    exact hfacing.start (st.start_next c m hop) (hF boot hop)
  have hstart : ∀ boot, st.op ≠ .start boot := fun boot hop ↦ hstart ⟨boot, hop⟩
  cases hrun : m.running with
  | false =>
      rcases st.next_idle c m hstart hrun with ⟨b, heq⟩ | ⟨-, heq⟩
      · rw [heq]
        exact ⟨hfacing.memory, hfacing.log⟩
      · rw [heq]
        exact ⟨fun r hr ↦ by simp [Impl.lost] at hr, hfacing.log⟩
  | true =>
      suffices h : ∀ m', Relation.ReflTransGen (Change c st (m.facing st.faults))
          (m.facing st.faults) m' →
          Relation.ReflTransGen (Change c st (m.facing st.faults)) m' (st.next c m) →
          m'.Every c F from h _ (st.course c m hstart) .refl
      intro m' hbefore
      induction hbefore with
      | refl => exact fun _ ↦ hfacing
      | @tail m₁ m₂ hbefore hc ih =>
          intro hafter
          have hm₁ := ih (.head hc hafter)
          exact hm₁.change hc fun v hv heq ↦
            hstores hrun _ v hm₁.memory ⟨hv, m₁, m₂, rfl, heq, hbefore, hafter⟩

end Impl.Every

/-- What every stored assignment has, given what holds of the run before, every assignment of
every run has. -/
theorem run_every {c : FabricConfig} {E : List Step → AssignmentRecord → Prop}
    (hmono : ∀ steps st r, E steps r → E (steps ++ [st]) r)
    (hstores : ∀ steps st s v, (run c steps).running = true → (run c steps).Every c (E steps) →
      s.Every (E (steps ++ [st])) → st.Storing c (run c steps) s v →
      E (steps ++ [st]) v.record)
    (hsuspends : ∀ steps st boot r, st.op = .start boot → E (steps ++ [st]) r →
      r.state.isLive = true → r.state ≠ .suspended →
      E (steps ++ [st]) (r.enter c.bounds .suspended .restartAuthorityReset (st.now 0)))
    (steps : List Step) : (run c steps).Every c (E steps) := by
  refine run_induction (P := fun steps m ↦ m.Every c (E steps)) ?_ (fun steps st h ↦ ?_) steps
  · refine ⟨fun r hr ↦ by simp at hr, ⟨fun _ he ↦ by simp at he, fun _ _ _ hmem ↦ ?_⟩⟩
    simp at hmem
  · exact h.next st (hmono steps st) (fun hrun s v hs hv ↦ hstores steps st s v hrun h hs hv)
      fun boot hop r ↦ hsuspends steps st boot r hop

end OffloadFabric
