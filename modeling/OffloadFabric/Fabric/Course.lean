import OffloadFabric.Fabric.Changes
import OffloadFabric.Wire.Extends

/-!
# The course of an operation

Every operation follows the changes of `Fabric.Changes`: first the durable calls, then the
programs they are part of, last the operations themselves.
-/

namespace OffloadFabric

open Lib Lib.Fallible FabricM Wire

/-! ## Durable calls -/

@[simp] theorem FabricM.exec_onLog {α : Type} (x : Fallible Log Error α) (m : Impl) :
    (onLog x).exec m = ((x.exec m.log).1, { m with log := (x.exec m.log).2 }) := by
  unfold onLog
  rw [exec_bind, exec_get]
  simp only
  cases h : x.exec m.log with
  | mk r l =>
      cases r with
      | ok a => simp only [exec_bind, exec_set, exec_pure]
      | error e => simp only [exec_bind, exec_set, exec_throw]

@[simp] theorem FabricM.exec_getState (m : Impl) : getState.exec m = (.ok m.state, m) := rfl

@[simp] theorem FabricM.exec_modifyState (f : FabricState → FabricState) (m : Impl) :
    (modifyState f).exec m = (.ok (), { m with state := f m.state }) := rfl

theorem Settled.same_right {b : Bounds} {s : FabricState} {l m n : Log} (h : Settled b s l m)
    (hs : m.Same n) : Settled b s l n := by
  cases h with
  | same h => exact .same (h.trans hs)
  | compacted envelope h h' => exact .compacted envelope h ⟨hs.1.trans h'.1, hs.2.trans h'.2⟩

theorem Settled.same_left {b : Bounds} {s : FabricState} {l m n : Log} (h : Settled b s m n)
    (hs : l.Same m) : Settled b s l n := by
  cases h with
  | same h => exact .same (hs.trans h)
  | compacted envelope h h' => exact .compacted envelope h h'

/-- The assignment in any payload of it fits alone. -/
theorem Payload.encode_record {b : Bounds} {v : RecordedAssignment} {type : RecordType}
    {payload : Bytes} (h : Payload b v type payload) :
    ∃ response, (encAssignment v.record).encode b.maxRecordBytes.toNat = .ok response := by
  cases h with
  | created h => exact Writer.encode_bind_left h
  | transitioned h => exact Writer.encode_bind_left h
  | effect h =>
      obtain ⟨q, hq⟩ := Writer.encode_bind_right h
      exact Writer.encode_bind_left hq

namespace Fabric

theorem compactLocked_settled (c : FabricConfig) (m : Impl) :
    ∃ l, ((compactLocked c).exec m).2 = { m with log := l } ∧
      Settled c.bounds m.state m.log l := by
  unfold compactLocked
  rw [exec_bind, exec_get]
  simp only
  split
  · rw [exec_bind, exec_liftExcept]
    cases h : snapshotEnvelope c.bounds m.state with
    | error e => exact ⟨m.log, rfl, .same (Log.Same.refl _)⟩
    | ok envelope =>
        simp only [exec_onLog]
        refine ⟨_, rfl, ?_⟩
        rcases Log.compact_exec c.bounds envelope m.log with hl | hl
        · exact .same hl
        · exact .compacted envelope h hl
  · exact ⟨m.log, rfl, .same (Log.Same.refl _)⟩

/-- An append on a settled log. -/
private theorem append_outcome (c : FabricConfig) (type : RecordType) (payload : Bytes)
    {m m₁ : Impl} {l : Log} (hm : m₁ = { m with log := l })
    (hl : Settled c.bounds m.state m.log l) {r : Except Error Unit} {m' : Impl}
    (h : (onLog (Log.append c.bounds type payload)).exec m₁ = (r, m')) :
    ∃ l', m' = { m with log := l' } ∧
      (r = .ok () → Recorded c.bounds m.state type payload m.log l') ∧
      (r ≠ .ok () → Settled c.bounds m.state m.log l') := by
  subst hm
  rw [exec_onLog] at h
  obtain ⟨rfl, rfl⟩ := Prod.mk.inj h
  refine ⟨_, rfl, fun hr ↦ ?_, fun hr ↦ ?_⟩
  · rcases Log.append_exec c.bounds type payload l with ⟨⟨e, he⟩, -⟩ | ⟨-, hs, hrec⟩
    · rw [he] at hr
      cases hr
    · exact ⟨l, hl, hs, hrec⟩
  · rcases Log.append_exec c.bounds type payload l with ⟨-, hs⟩ | ⟨hok, -⟩
    · exact hl.same_right hs
    · exact absurd hok hr

/-- A commit that succeeded recorded its payload; one that failed recorded nothing. -/
theorem commit_exec {c : FabricConfig} {type : RecordType} {payload : Bytes} {m m' : Impl}
    {r : Except Error Unit} (h : (commit c type payload).exec m = (r, m')) :
    ∃ l, m' = { m with log := l } ∧ (r = .ok () → Commits c m type payload l) ∧
      (r ≠ .ok () → Settled c.bounds m.state m.log l) := by
  unfold commit at h
  rw [exec_bind, exec_get] at h
  simp only at h
  split at h
  · next hopen =>
      suffices hrec : ∃ l, m' = { m with log := l } ∧
          (r = .ok () → Recorded c.bounds m.state type payload m.log l) ∧
          (r ≠ .ok () → Settled c.bounds m.state m.log l) by
        obtain ⟨l, hm, hok, herr⟩ := hrec
        exact ⟨l, hm, fun hr ↦ (if_pos hopen).mpr (hok hr), herr⟩
      obtain ⟨l, hm, hl⟩ := compactLocked_settled c m
      split at h
      · rw [exec_bind] at h
        split at h
        · next u t hc =>
            rw [hc] at hm
            exact append_outcome c type payload hm hl h
        · next e t hc =>
            obtain ⟨rfl, rfl⟩ := Prod.mk.inj h
            rw [hc] at hm
            exact ⟨l, hm, (fun hr ↦ by cases hr), fun _ ↦ hl⟩
      · exact append_outcome c type payload rfl (.same (Log.Same.refl _)) h
  · next hopen =>
      obtain ⟨rfl, rfl⟩ := Prod.mk.inj h
      exact ⟨m.log, rfl, (fun _ ↦ (if_neg hopen).mpr rfl), fun hr ↦ absurd rfl hr⟩

/-! ## Stored assignments -/

/-- What storing an assignment comes to: all of it, or a failed durable call. -/
inductive StoreOutcome (c : FabricConfig) (v : RecordedAssignment) (now : Micros) (m : Impl) :
    Except Error Unit × Impl → Prop
  | stored {l : Log} {type : RecordType} {payload response : Bytes}
      (hp : Payload c.bounds v type payload) (hr : Answers c.bounds v response)
      (hl : Commits c m type payload l) :
      StoreOutcome c v now m
        (.ok (), { m with log := l, state := m.state.storing c.bounds v response now })
  | failed {e : Error} {l : Log} (h : Settled c.bounds m.state m.log l) :
      StoreOutcome c v now m (.error e, { m with log := l })

/-- The commit, the change of the state and the answer that end both ways of storing. -/
private theorem store_exec {c : FabricConfig} {v : RecordedAssignment} {type : RecordType}
    {payload : Bytes} (now : Micros) (hp : Payload c.bounds v type payload) (m : Impl) :
    StoreOutcome c v now m ((do
      commit c type payload
      modifyState (·.insertAssignment v.record)
      answer c v.requestId v.requestFingerprint v.record now : FabricM Unit).exec m) := by
  rw [exec_bind]
  cases h : (commit c type payload).exec m with
  | mk res m' =>
      obtain ⟨l, rfl, hok, herr⟩ := commit_exec h
      cases res with
      | error e => exact .failed (herr (by simp))
      | ok u =>
          obtain ⟨response, hresponse⟩ := hp.encode_record
          simp only
          rw [exec_bind, exec_modifyState]
          simp only
          unfold answer
          split
          · next hid =>
              rw [hresponse, exec_bind, exec_liftExcept]
              exact .stored hp (fun _ ↦ hresponse) (hok rfl)
          · next hid =>
              have hempty : v.requestId = .empty := not_not.mp hid
              have hsame : m.state.storing c.bounds v response now =
                  m.state.insertAssignment v.record := by
                unfold FabricState.storing FabricState.recordIdempotency
                rw [if_pos hempty]
              rw [← hsame]
              exact .stored hp (fun _ ↦ hresponse) (hok rfl)

theorem storeAssignment_exec (c : FabricConfig) (r : AssignmentRecord) (id : RequestId)
    (fingerprint : Digest) {type : RecordType}
    (htype : type = .assignmentCreated ∨ type = .assignmentTransitioned) (now : Micros)
    (m : Impl) :
    StoreOutcome c ⟨r, id, fingerprint⟩ now m
      ((storeAssignment c r id fingerprint type now).exec m) := by
  unfold storeAssignment
  rw [exec_bind, exec_liftExcept]
  cases h : (encRecordedAssignment ⟨r, id, fingerprint⟩).encode
      c.bounds.maxRecordBytes.toNat with
  | error e => exact .failed (.same (Log.Same.refl _))
  | ok payload =>
      rcases htype with rfl | rfl
      · exact store_exec now (.created h) m
      · exact store_exec now (.transitioned h) m

theorem storeEffect_exec (c : FabricConfig) (r : AssignmentRecord) (report : EffectReport)
    (id : RequestId) (fingerprint : Digest) (now : Micros) (m : Impl) :
    StoreOutcome c ⟨r, id, fingerprint⟩ now m
      ((storeEffect c r report id fingerprint now).exec m) := by
  unfold storeEffect
  rw [exec_bind, exec_liftExcept]
  cases h : (encRecordedEffect ⟨report, r, id, fingerprint⟩).encode
      c.bounds.maxRecordBytes.toNat with
  | error e => exact .failed (.same (Log.Same.refl _))
  | ok payload => exact store_exec (v := ⟨r, id, fingerprint⟩) now (.effect h) m

/-! ## Courses -/

section

variable {c : FabricConfig} {st : Step} {m₀ m : Impl}

/-- The course of a program from a state, within a step. -/
abbrev Course (c : FabricConfig) (st : Step) (m₀ : Impl) {α : Type} (x : FabricM α) (m : Impl) :
    Prop :=
  Follows (Change c st m₀) x m

theorem StoreOutcome.change {v : RecordedAssignment} {now : Micros}
    {out : Except Error Unit × Impl} (h : StoreOutcome c v now m out)
    (hmiss : st.op.Missed c m₀.state) (hv : Stores c st.now m₀.state m.state st.op v) :
    Change c st m₀ m out.2 := by
  cases h with
  | stored hp hr hl => exact .stored hmiss hv hp hr hl
  | failed h => exact .settled h

theorem course_storeAssignment {r : AssignmentRecord} {id : RequestId} {fingerprint : Digest}
    {type : RecordType} (htype : type = .assignmentCreated ∨ type = .assignmentTransitioned)
    (hmiss : st.op.Missed c m₀.state)
    (hv : Stores c st.now m₀.state m.state st.op ⟨r, id, fingerprint⟩) (now : Micros) :
    Course c st m₀ (storeAssignment c r id fingerprint type now) m :=
  .of_step ((storeAssignment_exec c r id fingerprint htype now m).change hmiss hv)

theorem course_storeEffect {r : AssignmentRecord} {id : RequestId} {fingerprint : Digest}
    (hmiss : st.op.Missed c m₀.state)
    (hv : Stores c st.now m₀.state m.state st.op ⟨r, id, fingerprint⟩) (report : EffectReport)
    (now : Micros) :
    Course c st m₀ (storeEffect c r report id fingerprint now) m :=
  .of_step ((storeEffect_exec c r report id fingerprint now m).change hmiss hv)

/-- A commit that nothing follows in memory. -/
private theorem course_commit {type : RecordType} {payload : Bytes}
    (h : ∀ l, Commits c m type payload l → Change c st m₀ m { m with log := l }) :
    Course c st m₀ (commit c type payload) m := by
  refine .of_step ?_
  cases hx : (commit c type payload).exec m with
  | mk r m' =>
      obtain ⟨l, rfl, hok, herr⟩ := commit_exec hx
      cases r with
      | ok u => exact h l (hok rfl)
      | error e => exact .settled (herr (by simp))

/-- A commit and the change of the state it stands for. -/
private theorem course_commit_modify {type : RecordType} {payload : Bytes}
    {f : FabricState → FabricState}
    (h : ∀ l, Commits c m type payload l →
      Change c st m₀ m { m with log := l, state := f m.state }) :
    Course c st m₀ (do commit c type payload; modifyState f) m := by
  refine .of_step ?_
  rw [exec_bind]
  cases hx : (commit c type payload).exec m with
  | mk r m' =>
      obtain ⟨l, rfl, hok, herr⟩ := commit_exec hx
      cases r with
      | ok u => exact h l (hok rfl)
      | error e => exact .settled (herr (by simp))

theorem course_recordRefusal {id : RequestId} {fingerprint : Digest}
    (hmiss : st.op.Missed c m₀.state) (hk : st.op.lookup c m₀.state = some (id, fingerprint))
    (e : Error) (now : Micros) : Course c st m₀ (recordRefusal c id fingerprint e now) m := by
  unfold recordRefusal
  split
  · next hid =>
      exact .lift_bind fun response hr ↦ .lift_bind fun payload hp ↦
        course_commit_modify fun l hl ↦ .refused hmiss hid hk hr hp hl
  · exact .pure ()

theorem course_noteReassignment (k : ExclusivityKey) (now : Micros) :
    Course c st m₀ (noteReassignment c k now) m := by
  unfold noteReassignment
  exact .bind (.of_step .stamped) fun _ _ _ ↦ .lift_bind fun payload hp ↦
    course_commit fun l hl ↦ .noted hp hl

/-- What `issue` returns and the state it leaves. -/
theorem FabricM.issue_ok {α : Type} {f : FabricState → Result (α × FabricState)}
    {tag : α → Issued} {m' : Impl} {a : α} (h : (issue f tag).exec m = (.ok a, m')) :
    ∃ s, f m.state = .ok (a, s) ∧
      m' = { m with state := s, issued := m.issued ++ [tag a] } := by
  unfold issue at h
  rw [exec_bind, exec_get] at h
  simp only at h
  cases hf : f m.state with
  | error e =>
      rw [hf] at h
      cases h
  | ok v =>
      rw [hf] at h
      cases h
      exact ⟨v.2, rfl, rfl⟩

theorem course_issue {α : Type} {f : FabricState → Result (α × FabricState)} {tag : α → Issued}
    (hop : st.op.lookup c m₀.state ≠ none)
    (h : ∀ a s, f m.state = .ok (a, s) → m.state.Issue (tag a) s) :
    Course c st m₀ (issue f tag) m := by
  unfold issue
  refine .get_bind ?_
  cases hf : f m.state with
  | error e => exact .throw e
  | ok v => exact .of_step (.issued hop (h v.1 v.2 hf))

/-! ## Revalidation and ingestion -/

/-- The visit of one assignment: nothing to store, or the storing of what it becomes. -/
theorem revalidateOne_exec (c : FabricConfig) (now : Micros) (id : AssignmentId)
    (report : RevalidationReport) (m : Impl) :
    (∃ report', (revalidateOne c now id report).exec m = (.ok report', m) ∧
        ∀ r, m.state.assignments.find? id = some r → m.state.revalidated c.bounds r now = none) ∨
      ∃ r r' out, m.state.assignments.find? id = some r ∧
        m.state.revalidated c.bounds r now = some r' ∧
        StoreOutcome c ⟨r', .empty, .zero⟩ now m out ∧
        (revalidateOne c now id report).exec m =
          (out.1.map fun _ ↦ report.count (some r'), out.2) := by
  unfold revalidateOne
  rw [exec_bind, exec_getState]
  simp only
  cases hr : m.state.assignments.find? id with
  | none => exact .inl ⟨report, rfl, fun r h ↦ by cases h⟩
  | some r =>
      simp only
      split
      · next hterminal =>
          refine .inl ⟨report, rfl, fun r' h ↦ ?_⟩
          cases h
          unfold FabricState.revalidated
          rw [if_pos hterminal]
      · cases hr' : m.state.revalidated c.bounds r now with
        | none =>
            refine .inl ⟨_, rfl, fun r'' h ↦ ?_⟩
            cases h
            exact hr'
        | some r' =>
            refine .inr ⟨r, r', _, rfl, hr', storeAssignment_exec c r' .empty .zero (.inr rfl) now m,
              ?_⟩
            simp only
            rw [exec_bind]
            rcases (storeAssignment c r' .empty .zero .assignmentTransitioned now).exec m with ⟨x, t⟩
            cases x <;> rfl

/-- What revalidation stores keeps the identifier. -/
theorem FabricState.revalidated_id {s : FabricState} {b : Bounds} {r r' : AssignmentRecord}
    {now : Micros} (h : s.revalidated b r now = some r') : r'.id = r.id := by
  unfold FabricState.revalidated at h
  simp only at h
  repeat' split at h
  all_goals first
    | cases h
      done
    | cases h
      rfl

/-- A visit leaves the evidence, and every assignment but its own. -/
theorem revalidateOne_frame (c : FabricConfig) (now : Micros) (id : AssignmentId)
    (report : RevalidationReport) (m : Impl) :
    m.state.SameEvidence ((revalidateOne c now id report).exec m).2.state ∧
      ∀ id', id' ≠ id → ((revalidateOne c now id report).exec m).2.state.assignments.find? id' =
        m.state.assignments.find? id' := by
  rcases revalidateOne_exec c now id report m with ⟨report', h, -⟩ | ⟨r, r', out, hr, hr', ho, h⟩
  · rw [h]
    exact ⟨.refl _, fun _ _ ↦ rfl⟩
  · rw [h]
    cases ho with
    | failed => exact ⟨.refl _, fun _ _ ↦ rfl⟩
    | stored =>
        have hid : r'.id = id := by
          rw [FabricState.revalidated_id hr', ← key_assignment, Table.key_of_find? hr]
        dsimp only
        refine ⟨FabricState.sameEvidence_storing _ _ _ _ _, fun id' hne ↦ ?_⟩
        rw [FabricState.storing_assignments]
        refine Table.find?_insert_of_ne ?_
        rw [key_assignment, hid]
        exact hne.symm

/-- The visit of the assignments still to come: none of them has changed since the loop began,
and neither has the evidence. -/
theorem course_revalidateLoop {base : FabricState} {now : Micros}
    (hop : st.op.revalidation c st.now m₀.state = some (base, now))
    (hmiss : st.op.Missed c m₀.state) (cancel : CancelToken) (ids : List AssignmentId)
    (hnodup : ids.Nodup) (polls : Nat) (report : RevalidationReport)
    (hevidence : base.SameEvidence m.state)
    (hsame : ∀ id ∈ ids, m.state.assignments.find? id = base.assignments.find? id) :
    Course c st m₀ (revalidateLoop c now cancel polls report ids) m := by
  induction ids generalizing m polls report with
  | nil => exact .pure report
  | cons id ids ih =>
      obtain ⟨hid, hnodup⟩ := List.nodup_cons.mp hnodup
      unfold revalidateLoop
      refine .check_bind fun _ ↦ ?_
      obtain ⟨hframe, hother⟩ := revalidateOne_frame c now id report m
      refine .bind (.of_step ?_) fun report' m' hm' ↦ ?_
      · rcases revalidateOne_exec c now id report m with ⟨_, h, -⟩ | ⟨r, r', out, hr, hr', ho, h⟩
        · rw [h]
          exact .settled (.same (Log.Same.refl _))
        · rw [h]
          have hkey : r.id = id := Table.key_of_find? hr
          refine ho.change hmiss (.revalidated hop (fun x ↦ hevidence.assignmentValidity x now) ?_
            ?_ hr')
          · rw [hkey, hr]
          · rw [hkey, ← hsame id List.mem_cons_self, hr]
      · rw [hm'] at hframe hother
        refine ih hnodup _ _ (hevidence.trans hframe) fun id' hid' ↦ ?_
        have hne : id' ≠ id := fun heq ↦ hid (heq ▸ hid')
        rw [hother id' hne, hsame id' (List.mem_cons_of_mem _ hid')]

theorem FabricState.nodup_liveIds (s : FabricState) : s.liveIds.Nodup :=
  List.Nodup.sublist (List.filter_sublist.map _) s.assignments.nodup_keys

theorem course_revalidateLocked {now : Micros}
    (hop : st.op.revalidation c st.now m₀.state = some (m.state, now))
    (hmiss : st.op.Missed c m₀.state) (cancel : CancelToken) :
    Course c st m₀ (revalidateLocked c now cancel) m := by
  unfold revalidateLocked
  refine .bind (.of_eq rfl) fun s t hs ↦ ?_
  cases hs
  refine .bind ?_ fun _ _ _ ↦ .pure _
  exact course_revalidateLoop hop hmiss cancel _ (FabricState.nodup_liveIds _) 0 {}
    (.refl _) fun _ _ ↦ rfl

theorem course_deliver {d : Delivery} (hm : m.state = m₀.state)
    (hd : st.op.delivery c st.now m.state = .ok (some d)) : Course c st m₀ (deliver c d) m := by
  unfold deliver
  exact .lift_bind fun payload hp ↦ course_commit_modify fun l hl ↦ .delivered hm hd hp hl

/-- A delivery that succeeded left its state. -/
theorem deliver_ok {d : Delivery} {m' : Impl} {u : Unit}
    (h : (deliver c d).exec m = (.ok u, m')) : m'.state = d.next := by
  unfold deliver at h
  obtain ⟨payload, m₁, -, h₁⟩ := exec_bind_ok h
  obtain ⟨_, m₂, -, h₂⟩ := exec_bind_ok h₁
  cases h₂
  rfl

theorem course_register {accept : FabricState → Result (Option Delivery)}
    (hop : ∀ s, st.op.delivery c st.now s = accept s) : Course c st m (register c accept) m := by
  unfold register
  refine .bind (.of_eq rfl) fun s t hs ↦ ?_
  cases hs
  refine .lift_bind fun o ho ↦ ?_
  cases o with
  | none => exact .pure ()
  | some d => exact course_deliver rfl ((hop _).trans ho)

theorem course_ingest {accept : FabricState → Result (Option Delivery)} {now : Micros}
    (hop : ∀ s, st.op.delivery c st.now s = accept s)
    (hre : ∀ s d, accept s = .ok (some d) →
      st.op.revalidation c st.now s = some (d.next, now))
    (hmiss : st.op.Missed c m.state) : Course c st m (ingest c accept now) m := by
  unfold ingest
  refine .bind (.of_eq rfl) fun s t hs ↦ ?_
  cases hs
  refine .lift_bind fun o ho ↦ ?_
  cases o with
  | none => exact .pure ()
  | some d =>
      refine .bind (course_deliver rfl ((hop _).trans ho)) fun u m' hm' ↦ ?_
      unfold revalidateNow
      refine .bind (course_revalidateLocked ?_ hmiss _) fun _ _ _ ↦ .pure _
      rw [deliver_ok hm']
      exact hre _ _ ho

/-! ## Authorization -/

/-- The checks every mutating operation starts with change nothing. -/
theorem checkAccepting_ok {m' : Impl} {u : Unit} (h : checkAccepting.exec m = (.ok u, m')) :
    m' = m ∧ m.running = true ∧ m.recoveryAccepted = true := by
  obtain ⟨m₁, _, hget, h₁⟩ := exec_bind_ok h
  cases hget
  obtain ⟨_, _, hrun, h₂⟩ := exec_bind_ok h₁
  obtain ⟨hrun, rfl⟩ := exec_check_ok hrun
  obtain ⟨hacc, rfl⟩ := exec_check_ok h₂
  exact ⟨rfl, hrun, hacc⟩

/-- A program behind those checks runs, or is refused without a change. -/
theorem exec_checkAccepting_bind {α : Type} (f : Unit → FabricM α) (m : Impl) :
    m.running = true ∧ m.recoveryAccepted = true ∧
        (checkAccepting >>= f).exec m = (f ()).exec m ∨
      ∃ e, (checkAccepting >>= f).exec m = (.error e, m) := by
  unfold checkAccepting
  simp only [exec_bind, exec_get, exec_check]
  by_cases hrun : m.running = true
  · by_cases hacc : m.recoveryAccepted = true
    · exact .inl ⟨hrun, hacc, by simp only [hrun, hacc, if_true]⟩
    · simp only [hrun, if_true, if_neg hacc]
      exact .inr ⟨_, rfl⟩
  · simp only [if_neg hrun]
    exact .inr ⟨_, rfl⟩

theorem checkAccepting_bind {α : Type} {f : Unit → FabricM α}
    (h : m.running = true → m.recoveryAccepted = true → Course c st m₀ (f ()) m) :
    Course c st m₀ (checkAccepting >>= f) m := by
  rcases exec_checkAccepting_bind f m with ⟨hrun, hacc, heq⟩ | ⟨e, heq⟩
  · have hf := h hrun hacc
    unfold Course Follows at hf ⊢
    rw [heq]
    exact hf
  · refine .of_eq ?_
    rw [heq]

/-- A stored assignment without a request is only inserted. -/
theorem FabricState.storing_unanswered (s : FabricState) (b : Bounds) (r : AssignmentRecord)
    (fingerprint : Digest) (response : Bytes) (now : Micros) :
    s.storing b ⟨r, .empty, fingerprint⟩ response now = s.insertAssignment r := by
  unfold FabricState.storing FabricState.recordIdempotency
  rw [if_pos rfl]

/-- A supersession that succeeded left its state. -/
theorem supersede_ok {replacing : AssignmentId} {k : ExclusivityKey} {now : Micros} {m' : Impl}
    {u : Unit} (h : (supersede c replacing k now).exec m = (.ok u, m')) :
    m'.state = m.state.superseding c.bounds replacing k now := by
  unfold supersede at h
  unfold FabricState.superseding
  by_cases hne : replacing = .empty
  · rw [if_neg (not_not.mpr hne)] at h
    cases h
    rw [if_pos hne]
  · rw [if_pos hne] at h
    rw [if_neg hne]
    obtain ⟨s, m₁, hs, h₁⟩ := exec_bind_ok h
    cases hs
    cases hp : m.state.assignments.find? replacing with
    | none =>
        rw [hp] at h₁
        cases h₁
        rfl
    | some previous =>
        rw [hp] at h₁
        obtain ⟨_, m₂, hstore, h₂⟩ := exec_bind_ok h₁
        have htype : RecordType.assignmentTransitioned = .assignmentCreated ∨
          RecordType.assignmentTransitioned = .assignmentTransitioned := .inr rfl
        have ho := storeAssignment_exec c (previous.enter c.bounds .superseded .superseded now)
          .empty .zero htype now m
        rw [hstore] at ho
        unfold noteReassignment at h₂
        obtain ⟨_, m₃, hpush, h₃⟩ := exec_bind_ok h₂
        obtain ⟨payload, m₄, hlift, h₄⟩ := exec_bind_ok h₃
        obtain ⟨-, rfl⟩ := exec_liftExcept_ok hlift
        obtain ⟨l, rfl, -, -⟩ := commit_exec h₄
        cases hpush
        cases ho with
        | stored => simp only [FabricState.storing_unanswered]

theorem course_supersede {p : AssignmentPlan} {options : ApplyOptions} {auth : Authorization}
    {t : Micros} {i : FabricState.Identity} (hmiss : st.op.Missed c m₀.state)
    (ha : Authorized c st.now m₀.state st.op p options auth t) (hs : m₀.state.Issues i m.state)
    (k : ExclusivityKey) : Course c st m₀ (supersede c auth.replacing k t) m := by
  unfold supersede
  split
  · next hne =>
      refine .bind (.of_eq rfl) fun s m' hm' ↦ ?_
      cases hm'
      split
      · exact .pure ()
      · next previous hfind =>
          exact .bind (course_storeAssignment (.inr rfl) hmiss (.superseded ha hs hne hfind) t)
            fun _ _ _ ↦ course_noteReassignment k t
  · exact .pure ()

theorem course_authorizeLocked {p : AssignmentPlan} {options : ApplyOptions} {now : Micros}
    (hmiss : st.op.Missed c m.state) (hlookup : st.op.lookup c m.state ≠ none)
    (hasked : st.op.authorization c st.now m.state = some (p, options, now)) (polls : Nat)
    (stored : Micros) : Course c st m (authorizeLocked c p options polls now stored) m := by
  unfold authorizeLocked
  refine .bind (.of_eq rfl) fun s m' hm' ↦ ?_
  cases hm'
  refine .lift_bind fun auth hauth ↦ .check_bind fun _ ↦ ?_
  refine .bind (course_issue hlookup fun _ _ ↦ FabricState.issueAssignmentId_ok)
    fun id m₁ h₁ ↦ ?_
  obtain ⟨s₁, hs₁, rfl⟩ := FabricM.issue_ok h₁
  refine .bind (course_issue hlookup fun _ _ ↦ FabricState.issueLease_ok) fun lease m₂ h₂ ↦ ?_
  obtain ⟨s₂, hs₂, rfl⟩ := FabricM.issue_ok h₂
  refine .bind (course_issue hlookup fun _ _ ↦ FabricState.issueAttempt_ok)
    fun attempt m₃ h₃ ↦ ?_
  obtain ⟨s₃, hs₃, rfl⟩ := FabricM.issue_ok h₃
  refine .bind (course_issue hlookup fun _ _ ↦ FabricState.issueFence_ok) fun fence m₄ h₄ ↦ ?_
  obtain ⟨s₄, hs₄, rfl⟩ := FabricM.issue_ok h₄
  have ha : Authorized c st.now m.state st.op p options auth now := ⟨hasked, hauth⟩
  have hi : m.state.Issues ⟨id, lease, attempt, fence⟩ s₄ :=
    ⟨s₁, s₂, s₃, FabricState.issueAssignmentId_ok hs₁, FabricState.issueLease_ok hs₂,
      FabricState.issueAttempt_ok hs₃, FabricState.issueFence_ok hs₄⟩
  refine .bind (course_supersede hmiss ha hi _) fun _ m₅ h₅ ↦ ?_
  have hs := supersede_ok h₅
  exact .bind (course_storeAssignment (.inl rfl) hmiss (.created ha hi hs) stored)
    fun _ _ _ ↦ .pure _

theorem missed_of_lookup {id : RequestId} {fingerprint : Digest} {detail : String}
    {s : FabricState} (hk : st.op.lookup c s = some (id, fingerprint))
    (h : cachedAnswer s id fingerprint detail = none) : st.op.Missed c s := by
  intro k hk'
  rw [hk, Option.mem_def, Option.some.injEq] at hk'
  subst hk'
  unfold cachedAnswer at h
  rwa [Option.map_eq_none_iff] at h

private theorem ne_none_of_lookup {s : FabricState} {k : RequestId × Digest}
    (hk : st.op.lookup c s = some k) : st.op.lookup c s ≠ none := by
  rw [hk]
  simp

theorem course_refusing {id : RequestId} {fingerprint : Digest} {x : FabricM AssignmentRecord}
    (hmiss : st.op.Missed c m₀.state) (hk : st.op.lookup c m₀.state = some (id, fingerprint))
    (hx : Course c st m₀ x m) (now : Micros) :
    Course c st m₀ (refusing c id fingerprint now x) m := by
  unfold refusing
  exact .tryCatch hx fun e t _ ↦
    .bind (course_recordRefusal hmiss hk e now) fun _ _ _ ↦ .throw e

theorem course_applyLocked {request : PlacementRequest} {options : ApplyOptions}
    (hk : st.op.lookup c m.state =
      some (request.requestId, fingerprintOf c.bounds request))
    (hplan : st.op.authorization c st.now m.state =
      Op.placement c st.now m.state request options) :
    Course c st m (applyLocked c request options st.now) m := by
  unfold applyLocked
  refine .check_bind fun _ ↦ .bind (.of_eq rfl) fun s m' hm' ↦ ?_
  cases hm'
  simp only
  split
  · exact .liftExcept _
  · next hcached =>
      have hmiss := missed_of_lookup hk hcached
      refine .lift_bind fun planned hplanned ↦ ?_
      unfold Op.placement at hplan
      rw [hplanned] at hplan
      split
      · exact .bind (course_recordRefusal hmiss hk _ _) fun _ _ _ ↦ .throw _
      · next hdecision =>
          simp only [if_neg hdecision] at hplan
          exact course_refusing hmiss hk
            (course_authorizeLocked hmiss (ne_none_of_lookup hk) hplan 2 _) _

theorem course_apply {request : PlacementRequest} {options : ApplyOptions}
    (hop : st.op = .apply request options) : Course c st m (apply c request options st.now) m := by
  unfold apply
  refine checkAccepting_bind fun _ _ ↦ course_applyLocked ?_ ?_
  · rw [hop]
    rfl
  · rw [hop]
    rfl

theorem course_applyPlan {planned : PlanResult} {options : ApplyOptions}
    (hop : st.op = .applyPlan planned options) :
    Course c st m (applyPlan c planned options st.now) m := by
  unfold applyPlan
  refine checkAccepting_bind fun _ _ ↦ .check_bind fun _ ↦ .bind (.of_eq rfl) fun s m' hm' ↦ ?_
  cases hm'
  split
  · exact .liftExcept _
  · next hcached =>
      have hk : st.op.lookup c m.state = some (options.requestId, planned.plan.planDigest) := by
        rw [hop]
        rfl
      have hmiss := missed_of_lookup hk hcached
      refine course_refusing hmiss hk
        (course_authorizeLocked hmiss (ne_none_of_lookup hk) ?_ 0 _) _
      rw [hop]
      rfl

theorem course_replace {request : ReplaceRequest} (hop : st.op = .replace request) :
    Course c st m (replace c request st.now) m := by
  unfold replace
  refine checkAccepting_bind fun _ _ ↦ .bind (.of_eq rfl) fun s m' hm' ↦ ?_
  cases hm'
  refine .found_bind fun current hcurrent ↦ course_applyLocked ?_ ?_
  · rw [hop]
    simp only [Op.lookup, hcurrent, Option.map_some]
  · rw [hop]
    simp only [Op.authorization, hcurrent]

/-! ## Operations on one assignment -/

theorem course_revoke {request : RevokeRequest} (hop : st.op = .revoke request) :
    Course c st m (revoke c request st.now) m := by
  unfold revoke
  refine checkAccepting_bind fun _ _ ↦ .bind (.of_eq rfl) fun s m' hm' ↦ ?_
  cases hm'
  split
  · exact .liftExcept _
  · next hcached =>
      refine .found_bind fun r hr ↦ ?_
      split
      · exact .pure r
      · next hne =>
          refine .check_bind fun _ ↦ .lift_bind fun _ hcheck ↦
            .bind (course_storeAssignment (.inr rfl) ?_ ?_ _) fun _ _ _ ↦ .pure _
          · refine missed_of_lookup ?_ hcached
            rw [hop]
            rfl
          · rw [hop]
            exact .revoked rfl hr hne hcheck

theorem course_reauthorize {request : ReauthorizeRequest} (hop : st.op = .reauthorize request) :
    Course c st m (reauthorize c request st.now) m := by
  unfold reauthorize
  refine checkAccepting_bind fun _ _ ↦ .bind (.of_eq rfl) fun s m' hm' ↦ ?_
  cases hm'
  split
  · exact .liftExcept _
  · next hcached =>
      have hk : st.op.lookup c m.state = some (request.requestId, request.fingerprint) := by
        rw [hop]
        rfl
      have hmiss := missed_of_lookup hk hcached
      have hlookup := ne_none_of_lookup hk
      refine .found_bind fun r hr ↦ ?_
      split
      · exact .pure r
      · refine .lift_bind fun validity hcheck ↦ ?_
        refine .bind (course_issue hlookup fun _ _ ↦ FabricState.issueLease_ok)
          fun lease m₁ h₁ ↦ ?_
        obtain ⟨s₁, hs₁, rfl⟩ := FabricM.issue_ok h₁
        refine .bind (course_issue hlookup fun _ _ ↦ FabricState.issueAttempt_ok)
          fun attempt m₂ h₂ ↦ ?_
        obtain ⟨s₂, hs₂, rfl⟩ := FabricM.issue_ok h₂
        refine .bind (course_issue hlookup fun _ _ ↦ FabricState.issueFence_ok)
          fun fence m₃ h₃ ↦ ?_
        obtain ⟨s₃, hs₃, rfl⟩ := FabricM.issue_ok h₃
        refine .bind (course_storeAssignment (.inr rfl) hmiss ?_ _) fun _ _ _ ↦ .pure _
        have hrenews : m.state.Renews lease attempt fence s₃ :=
          ⟨s₁, s₂, FabricState.issueLease_ok hs₁, FabricState.issueAttempt_ok hs₂,
            FabricState.issueFence_ok hs₃⟩
        rw [hop]
        exact .reauthorized hrenews hr hcheck

theorem course_reportEffect {report : EffectReport} (hop : st.op = .reportEffect report) :
    Course c st m (reportEffect c report st.now) m := by
  unfold reportEffect
  refine checkAccepting_bind fun _ _ ↦ .bind (.of_eq rfl) fun s m' hm' ↦ ?_
  cases hm'
  simp only
  split
  · exact .liftExcept _
  · next hcached =>
      refine .found_bind fun r hr ↦ .lift_bind fun _ hfence ↦ .lift_bind fun o ho ↦ ?_
      cases o with
      | none => exact .pure r
      | some r' =>
          refine .bind (course_storeEffect ?_ ?_ report _) fun _ _ _ ↦ .pure _
          · refine missed_of_lookup ?_ hcached
            rw [hop]
            rfl
          · rw [hop]
            exact .reported rfl hr hfence ho

/-! ## The life cycle -/

theorem course_compactLocked : Course c st m₀ (compactLocked c) m := by
  refine .of_step ?_
  obtain ⟨l, hm, hl⟩ := compactLocked_settled c m
  rw [hm]
  exact .settled hl

theorem course_compact : Course c st m₀ (compact c) m := by
  unfold compact
  exact .get_bind <| .check_bind fun _ ↦ course_compactLocked

theorem course_shutdown (hop : st.op = .shutdown) : Course c st m₀ (shutdown c) m := by
  unfold shutdown
  refine .get_bind <| .bind (.modify .flagged) fun _ m₁ h₁ ↦ ?_
  cases h₁
  split
  · split
    · refine .bind (.modify (.closed hop)) fun _ m₂ h₂ ↦ ?_
      cases h₂
      refine .of_step ?_
      rw [exec_onLog]
      rcases Log.append_exec c.bounds .storeSealed (le 8 m.state.epoch.counter.toNat) m.log with
        ⟨-, hs⟩ | ⟨-, hsnapshot, hrecords⟩
      · exact .settled (.same hs)
      · exact .sealed hop hsnapshot hrecords
    · next hclosed =>
        have hopen : m.storeOpen = false := by simpa using hclosed
        cases m
        cases hopen
        exact .modify (.closed hop)
  · exact .pure _

/-! ## The course of a start -/

/-- The visit of one assignment by a start: nothing, or its suspension. -/
theorem suspendForRestart_exec (c : FabricConfig) (now : Micros) (id : AssignmentId) (m : Impl) :
    ((suspendForRestart c now id).exec m = (.ok (), m) ∧
        ∀ r, m.state.assignments.find? id = some r → r.state = .suspended) ∨
      ∃ r, m.state.assignments.find? id = some r ∧ r.state ≠ .suspended ∧
        StoreOutcome c ⟨r.enter c.bounds .suspended .restartAuthorityReset now, .empty, .zero⟩ now
          m ((suspendForRestart c now id).exec m) := by
  unfold suspendForRestart
  rw [exec_bind, exec_getState]
  simp only
  cases hr : m.state.assignments.find? id with
  | none => exact .inl ⟨rfl, fun r h ↦ by cases h⟩
  | some r =>
      simp only
      split
      · next hs =>
          refine .inl ⟨rfl, fun r' h ↦ ?_⟩
          cases h
          exact hs
      · next hne => exact .inr ⟨r, rfl, hne, storeAssignment_exec c _ .empty .zero (.inr rfl) now m⟩

/-- A visit changes no other assignment. -/
theorem suspendForRestart_frame (c : FabricConfig) (now : Micros) (id : AssignmentId) (m : Impl)
    {id' : AssignmentId} (hne : id' ≠ id) :
    ((suspendForRestart c now id).exec m).2.state.assignments.find? id' =
      m.state.assignments.find? id' := by
  rcases suspendForRestart_exec c now id m with ⟨h, -⟩ | ⟨r, hr, -, ho⟩
  · rw [h]
  · have hid : r.id = id := Table.key_of_find? hr
    generalize (suspendForRestart c now id).exec m = out at ho
    cases ho with
    | failed => rfl
    | stored =>
        simp only [FabricState.storing_assignments]
        refine Table.find?_insert_of_ne fun heq ↦ hne ?_
        rw [← heq, ← hid]
        rfl

/-- A visit of a live assignment is a change of the loop. -/
theorem suspends_suspendForRestart {now : Micros} {id : AssignmentId}
    (hlive : ∀ r, m.state.assignments.find? id = some r → r.state.isLive = true) :
    Follows (Suspends c now) (suspendForRestart c now id) m := by
  refine .of_step ?_
  rcases suspendForRestart_exec c now id m with ⟨h, -⟩ | ⟨r, hr, hne, ho⟩
  · rw [h]
    exact .settled (.same (Log.Same.refl _))
  · have hid : r.id = id := Table.key_of_find? hr
    generalize (suspendForRestart c now id).exec m = out at ho
    cases ho with
    | failed h => exact .settled h
    | stored hp _ hl =>
        rw [FabricState.storing_unanswered]
        exact .stored (by rw [hid, hr]) (hlive r hr) hne rfl hp hl

/-- The suspensions still to come: what they visit is live. -/
theorem suspends_suspendAll {now : Micros} (ids : List AssignmentId) (hnodup : ids.Nodup)
    (hlive : ∀ id ∈ ids, ∀ r, m.state.assignments.find? id = some r → r.state.isLive = true) :
    Follows (Suspends c now) (suspendAll c now ids) m := by
  induction ids generalizing m with
  | nil => exact .pure ()
  | cons id ids ih =>
      obtain ⟨hid, hnodup⟩ := List.nodup_cons.mp hnodup
      unfold suspendAll
      refine .bind (suspends_suspendForRestart (hlive id List.mem_cons_self)) fun _ m' hm' ↦ ?_
      refine ih hnodup fun id' hid' r hr ↦ ?_
      have hother := suspendForRestart_frame c now id m fun heq ↦ hid (heq ▸ hid')
      rw [hm'] at hother
      rw [hother] at hr
      exact hlive id' (List.mem_cons_of_mem _ hid') r hr

/-- A visit that succeeded leaves its assignment suspended. -/
theorem suspendForRestart_ok {now : Micros} {id : AssignmentId} {m' : Impl} {u : Unit}
    (h : (suspendForRestart c now id).exec m = (.ok u, m')) {r : AssignmentRecord}
    (hr : m'.state.assignments.find? id = some r) : r.state = .suspended := by
  rcases suspendForRestart_exec c now id m with ⟨h', hs⟩ | ⟨r', hr', -, ho⟩
  · rw [h'] at h
    cases h
    exact hs r hr
  · have hid : r'.id = id := Table.key_of_find? hr'
    rw [h] at ho
    cases ho
    rw [FabricState.storing_assignments, ← hid] at hr
    have hself := Table.find?_insert_self m.state.assignments
      (r'.enter c.bounds .suspended .restartAuthorityReset now)
    rw [show r'.id = key (r'.enter c.bounds .suspended .restartAuthorityReset now) from rfl,
      hself] at hr
    cases hr
    rfl

/-- A loop that succeeded leaves everything it visits suspended, and the rest as it was. -/
theorem suspendAll_ok {now : Micros} {ids : List AssignmentId} (hnodup : ids.Nodup) {m' : Impl}
    {u : Unit} (h : (suspendAll c now ids).exec m = (.ok u, m')) (id : AssignmentId) :
    (id ∈ ids → ∀ r, m'.state.assignments.find? id = some r → r.state = .suspended) ∧
      (id ∉ ids → m'.state.assignments.find? id = m.state.assignments.find? id) := by
  induction ids generalizing m with
  | nil =>
      cases h
      exact ⟨fun hid ↦ absurd hid List.not_mem_nil, fun _ ↦ rfl⟩
  | cons id₁ ids ih =>
      obtain ⟨hid₁, hnodup⟩ := List.nodup_cons.mp hnodup
      unfold suspendAll at h
      obtain ⟨_, m₁, hone, hrest⟩ := exec_bind_ok h
      obtain ⟨hin, hout⟩ := ih hnodup hrest
      have hother : id ≠ id₁ → m₁.state.assignments.find? id = m.state.assignments.find? id := by
        intro hne
        have := suspendForRestart_frame c now id₁ m hne
        rwa [hone] at this
      refine ⟨fun hid r hr ↦ ?_, fun hid ↦ ?_⟩
      · rcases List.mem_cons.mp hid with rfl | hid
        · rw [hout hid₁] at hr
          exact suspendForRestart_ok hone hr
        · exact hin hid r hr
      · rw [List.mem_cons, not_or] at hid
        rw [hout hid.2, hother hid.1]

/-- The assignments a state lists as live are. -/
theorem FabricState.isLive_of_liveIds {s : FabricState} {id : AssignmentId} (h : id ∈ s.liveIds)
    {r : AssignmentRecord} (hr : s.assignments.find? id = some r) : r.state.isLive = true := by
  obtain ⟨r', hr', rfl⟩ := List.mem_map.mp h
  obtain ⟨hmem, hlive⟩ := List.mem_filter.mp hr'
  have hfind := Table.mem_values.mp hmem
  rw [key_assignment, hr] at hfind
  cases hfind
  exact hlive

/-- An assignment that a state does not list as live is not. -/
theorem FabricState.mem_liveIds {s : FabricState} {r : AssignmentRecord}
    (hr : r ∈ s.assignments.values) (hlive : r.state.isLive = true) : r.id ∈ s.liveIds :=
  List.mem_map.mpr ⟨r, List.mem_filter.mpr ⟨hr, hlive⟩, rfl⟩

/-- The epoch record of a start: recorded, or the start ends with the state in its epoch. -/
private theorem exec_epochCommit (payload : Bytes) (f : Error → Error) :
    (∃ l, (tryCatch (commit c .epochStarted payload) fun e ↦ throw (f e)).exec m =
        (.ok (), { m with log := l }) ∧ Commits c m .epochStarted payload l) ∨
      ∃ e l, (tryCatch (commit c .epochStarted payload) fun e ↦ throw (f e)).exec m =
        (.error e, { m with log := l }) ∧ Settled c.bounds m.state m.log l := by
  rw [exec_tryCatch]
  cases h : (commit c .epochStarted payload).exec m with
  | mk r m' =>
      obtain ⟨l, rfl, hok, herr⟩ := commit_exec h
      cases r with
      | ok u => exact .inl ⟨l, rfl, hok rfl⟩
      | error e => exact .inr ⟨f e, l, rfl, herr (by simp)⟩

/-- The suspension loop of a start and its end. -/
private theorem start_suspendAll {now : Micros} {boot : BootId} {m₁ : Impl}
    (hstore : c.hasStore = true) (h : Restarted c boot m m₁) {out : Except Error Unit × Impl}
    (hout : out = ((do
      suspendAll c now m₁.state.liveIds
      modify fun m ↦ { m with running := true, recoveryAccepted := c.autoAcceptRecovery } :
        FabricM Unit).exec m₁)) : Start c now boot m out.2 := by
  have hsuspends : Relation.ReflTransGen (Suspends c now) m₁
      ((suspendAll c now m₁.state.liveIds).exec m₁).2 :=
    suspends_suspendAll _ (FabricState.nodup_liveIds _)
      fun id hid r hr ↦ FabricState.isLive_of_liveIds hid hr
  subst hout
  rw [exec_bind]
  cases hall : (suspendAll c now m₁.state.liveIds).exec m₁ with
  | mk r m' =>
      rw [hall] at hsuspends
      cases r with
      | error e => exact .suspending hstore h hsuspends
      | ok u =>
          refine .launched hstore h hsuspends fun r hr hlive ↦ ?_
          have hfind : m'.state.assignments.find? r.id = some r := Table.mem_values.mp hr
          obtain ⟨hin, hrest⟩ := suspendAll_ok (FabricState.nodup_liveIds _) hall r.id
          by_cases hid : r.id ∈ m₁.state.liveIds
          · exact hin hid r hfind
          · rw [hrest hid] at hfind
            exact absurd (FabricState.mem_liveIds (Table.mem_values.mpr hfind) hlive) hid

/-- A start from its recovered state. -/
private theorem start_restart {now : Micros} {boot : BootId} {l : Log} {s : FabricState}
    (hstore : c.hasStore = true) (hrun : m.running = false) (hl : m.log.Same l)
    (hr : (recover c.bounds l).exec m.state = (.ok (), s)) :
    Start c now boot m
      ((restart c boot now).exec { m.opened l with state := s.rebuildIndexes }).2 := by
  unfold restart
  rw [exec_bind, exec_getState]
  simp only
  rw [exec_bind, exec_liftExcept]
  cases hn : s.rebuildIndexes.nextEpoch with
  | error e => exact .exhausted hstore hrun hl hr
  | ok counter =>
      simp only
      rw [exec_bind, exec_modifyState]
      simp only
      rw [exec_bind, exec_liftExcept]
      cases hp : (encEpoch ⟨counter, boot⟩).encode 64 with
      | error e => exact .unrecorded hstore hrun hl hr hn (.same (Log.Same.refl _))
      | ok payload =>
          simp only
          rw [exec_bind]
          rcases exec_epochCommit (c := c) payload _ with ⟨l', h, hcommit⟩ | ⟨e, l', h, hsettled⟩
          · rw [h]
            simp only
            rw [exec_bind, exec_modifyState]
            simp only
            rw [exec_bind, exec_getState]
            simp only
            have hrestarted : Restarted c boot m { m.opened l' with
                state := (s.restarting counter boot).applyRecoveryInvariants } :=
              ⟨hrun, l, s, counter, payload, l', hl, hr, hn, hp, hcommit, rfl⟩
            exact start_suspendAll hstore hrestarted rfl
          · rw [h]
            exact .unrecorded hstore hrun hl hr hn hsettled

/-- A recovery leaves the rebuilt state, or the one where its replay stopped. -/
theorem recoverState_exec (c : FabricConfig) (m : Impl) :
    (recoverState c).exec m =
      match (recover c.bounds m.log).exec m.state with
      | (.ok _, s) => (.ok (), { m with state := s.rebuildIndexes })
      | (.error e, s) => (.error e, { m with state := s }) := by
  unfold recoverState onState
  rw [exec_bind, exec_get]
  simp only
  rw [exec_bind, exec_bind, exec_get]
  simp only
  cases (recover c.bounds m.log).exec m.state with
  | mk r s => cases r <;> rfl

theorem start_exec (boot : BootId) (now : Micros) (m : Impl) :
    Start c now boot m ((start c boot now).exec m).2 := by
  unfold start
  rw [exec_bind, exec_get]
  simp only
  rw [exec_bind, exec_check]
  by_cases hrun : m.running = false
  · rw [if_pos hrun]
    simp only
    rw [exec_bind, exec_modify]
    simp only
    rw [exec_bind, exec_liftExcept]
    cases c.bounds.validate with
    | error e => exact .refused (l := m.log) (Log.Same.refl _)
    | ok u =>
        simp only
        split
        · next hstore =>
            have hsame := Log.reopen_same c.bounds m.log
            rw [exec_bind, exec_onLog]
            cases hopen : (Log.reopen c.bounds).exec m.log with
            | mk r l =>
                rw [hopen] at hsame
                cases r with
                | error e => exact .refused hsame
                | ok u =>
                    simp only
                    rw [exec_bind, exec_modify]
                    simp only
                    rw [exec_bind, recoverState_exec]
                    cases hr : (recover c.bounds l).exec m.state with
                    | mk r s =>
                        simp only
                        cases r with
                        | error e => exact .unreadable hstore hrun hsame hr
                        | ok u => exact start_restart hstore hrun hsame hr
        · next hstore => exact .bare (by simpa using hstore) hrun
  · rw [if_neg hrun]
    exact .refused (l := m.log) (Log.Same.refl _)

end

end Fabric

/-! ## The course of a step -/

open Fabric in
/-- Every step but a start is a sequence of changes, whatever it answers. -/
theorem Step.course (c : FabricConfig) (m : Impl) (st : Step)
    (hstart : ∀ boot, st.op ≠ .start boot) :
    Relation.ReflTransGen (Change c st (m.facing st.faults)) (m.facing st.faults)
      (st.next c m) := by
  suffices h : ∀ op, st.op = op →
      Follows (Change c st (m.facing st.faults)) (op.program c st.now) (m.facing st.faults) from
    h st.op rfl
  intro op hop
  generalize m.facing st.faults = m
  have hmissed : ∀ k, op.lookup c m.state = k → k = none → st.op.Missed c m.state := by
    rintro k hk rfl k' hk'
    rw [hop, hk] at hk'
    cases hk'
  cases op with
  | start boot => exact absurd hop (hstart boot)
  | shutdown => exact .bind (course_shutdown hop) fun _ _ _ ↦ .pure _
  | acceptRecovery =>
      exact .bind (.get_bind <| .check_bind fun hrun ↦ .modify (.accepted hrun))
        fun _ _ _ ↦ .pure _
  | compact => exact .bind course_compact fun _ _ _ ↦ .pure _
  | crash => exact .bind (.modify (.crashed hop)) fun _ _ _ ↦ .pure _
  | registerFunction f =>
      refine .bind (checkAccepting_bind fun _ _ ↦ course_register fun s ↦ ?_)
        fun _ _ _ ↦ .pure _
      rw [hop]
      rfl
  | ingestTopology t =>
      refine .bind (checkAccepting_bind fun _ _ ↦ course_ingest (fun s ↦ ?_) (fun s d hd ↦ ?_)
        (hmissed _ rfl rfl)) fun _ _ _ ↦ .pure _
      · rw [hop]
        rfl
      · rw [hop]
        simp only [Op.revalidation, Op.delivery, hd]
  | ingestCapabilities report =>
      refine .bind (checkAccepting_bind fun _ _ ↦ course_ingest (fun s ↦ ?_) (fun s d hd ↦ ?_)
        (hmissed _ rfl rfl)) fun _ _ _ ↦ .pure _
      · rw [hop]
        rfl
      · rw [hop]
        simp only [Op.revalidation, Op.delivery, hd]
  | ingestPolicy p =>
      refine .bind (checkAccepting_bind fun _ _ ↦ course_ingest (fun s ↦ ?_) (fun s d hd ↦ ?_)
        (hmissed _ rfl rfl)) fun _ _ _ ↦ .pure _
      · rw [hop]
        rfl
      · rw [hop]
        simp only [Op.revalidation, Op.delivery, hd]
  | ingestObservations report =>
      refine .bind (checkAccepting_bind fun _ _ ↦ course_ingest (fun s ↦ ?_) (fun s d hd ↦ ?_)
        (hmissed _ rfl rfl)) fun _ _ _ ↦ .pure _
      · rw [hop]
        rfl
      · rw [hop]
        simp only [Op.revalidation, Op.delivery, hd]
  | grantAuthority g =>
      refine .bind (checkAccepting_bind fun _ _ ↦ course_register fun s ↦ ?_)
        fun _ _ _ ↦ .pure _
      rw [hop]
      rfl
  | withdrawAuthority id reason =>
      refine .bind (.get_bind <| .check_bind fun _ ↦ course_ingest (fun s ↦ ?_)
        (fun s d hd ↦ ?_) (hmissed _ rfl rfl)) fun _ _ _ ↦ .pure _
      · rw [hop]
        rfl
      · rw [hop]
        simp only [Op.revalidation, Op.delivery, hd]
  | apply request options => exact .bind (course_apply hop) fun _ _ _ ↦ .pure _
  | applyPlan planned options => exact .bind (course_applyPlan hop) fun _ _ _ ↦ .pure _
  | replace request => exact .bind (course_replace hop) fun _ _ _ ↦ .pure _
  | revoke request => exact .bind (course_revoke hop) fun _ _ _ ↦ .pure _
  | reauthorize request => exact .bind (course_reauthorize hop) fun _ _ _ ↦ .pure _
  | reportEffect report => exact .bind (course_reportEffect hop) fun _ _ _ ↦ .pure _
  | revalidate cancel =>
      refine .bind (.get_bind <| .check_bind fun _ ↦ course_revalidateLocked ?_
        (hmissed _ rfl rfl) cancel) fun _ _ _ ↦ .pure _
      rw [hop]
      rfl

/-- A step that starts the runtime. -/
theorem Step.start_next (c : FabricConfig) (m : Impl) (st : Step) {boot : BootId}
    (hop : st.op = .start boot) :
    Start c (st.now 0) boot (m.facing st.faults) (st.next c m) := by
  have h := Fabric.start_exec (c := c) boot (st.now 0) (m.facing st.faults)
  unfold Step.next Step.exec
  rw [hop]
  unfold Op.program
  simp only
  rw [exec_bind]
  generalize (Fabric.start c boot (st.now 0)).exec (m.facing st.faults) = out at h ⊢
  obtain ⟨r, m'⟩ := out
  cases r <;> exact h

end OffloadFabric
