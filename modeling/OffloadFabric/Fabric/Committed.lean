import OffloadFabric.Fabric.Currency
import OffloadFabric.Lib.History

/-!
# Committed evidence

A step commits its evidence when the journal acknowledges the record of it. A running runtime
holds the latest of what was committed, and so does every recovery of its log
(`src/fabric.cpp:1504-1536,1842-1905,2836-3298`).
-/

namespace OffloadFabric

open Lib Lib.Fallible FabricState

/-! ## What an operation brings -/

namespace Op

/-- The source and the sequence of the evidence of an operation. -/
def provenance : Op → Option (SourceKey × UInt64)
  | ingestTopology t => some (⟨t.provenance.source, .topology⟩, t.provenance.sequence)
  | ingestCapabilities report =>
      some (⟨report.provenance.source, .capability⟩, report.provenance.sequence)
  | ingestPolicy p => some (⟨p.provenance.source, .policy⟩, p.provenance.sequence)
  | ingestObservations report =>
      some (⟨report.provenance.source, .observation⟩, report.provenance.sequence)
  | grantAuthority g => some (⟨g.provenance.source, .authority⟩, g.provenance.sequence)
  | _ => none

/-- The sequences an operation brings of a source in a domain. -/
def sequences (k : SourceKey) (op : Op) : List UInt64 :=
  match op.provenance with
  | some (source, sequence) => if source = k then [sequence] else []
  | none => []

/-- The topologies an operation brings. -/
def topologies : Op → List TopologySnapshot
  | ingestTopology t => [t]
  | _ => []

/-- The policies an operation brings. -/
def policies : Op → List PolicySnapshot
  | ingestPolicy p => [p]
  | _ => []

/-- The capability records an operation brings of a device and a class. -/
def capabilities (k : CapabilityKey) : Op → List CapabilityRecord
  | ingestCapabilities report => report.records.filter fun r ↦ key r = k
  | _ => []

/-- A runtime takes evidence once its recovery is accepted, and withdrawals while it runs. -/
def admittedBy (m : Impl) : Op → Bool
  | withdrawAuthority _ _ => m.running
  | _ => m.running && m.recoveryAccepted

end Op

/-- The evidence a step commits: it is accepted and its record acknowledged. -/
def Step.commits (c : FabricConfig) (m : Impl) (st : Step) : List Op :=
  match st.op.delivery c st.now m.state with
  | .ok (some d) =>
      if st.op.admittedBy m then
        match ((Fabric.deliver c d).exec (m.facing st.faults)).1 with
        | .ok () => [st.op]
        | .error _ => []
      else []
  | _ => []

/-- The evidence a sequence of steps commits, in order. -/
def committedFrom (c : FabricConfig) (m : Impl) : List Step → List Op
  | [] => []
  | st :: steps => st.commits c m ++ committedFrom c (st.next c m) steps

/-- The evidence a run commits, in order. -/
def committed (c : FabricConfig) (steps : List Step) : List Op := committedFrom c {} steps

@[simp] theorem committed_nil (c : FabricConfig) : committed c [] = [] := rfl

@[simp] theorem committed_append (c : FabricConfig) (steps : List Step) (st : Step) :
    committed c (steps ++ [st]) = committed c steps ++ st.commits c (run c steps) := by
  suffices h : ∀ m : Impl, committedFrom c m (steps ++ [st]) =
      committedFrom c m steps ++ st.commits c (runFrom c m steps) from h {}
  induction steps with
  | nil => exact fun m ↦ List.append_nil _
  | cons st' steps ih =>
      intro m
      rw [List.cons_append, committedFrom, committedFrom, ih, List.append_assoc]
      rfl

/-- What a step commits is its own evidence. -/
theorem Step.mem_commits {c : FabricConfig} {m : Impl} {st : Step} {op : Op}
    (h : op ∈ st.commits c m) : op = st.op := by
  unfold commits at h
  split at h
  · split at h
    · split at h
      · exact List.mem_singleton.mp h
      · cases h
    · cases h
  · cases h

theorem exists_step_of_committed {c : FabricConfig} {steps : List Step} {op : Op}
    (h : op ∈ committed c steps) : ∃ st ∈ steps, op = st.op := by
  induction steps using List.reverseRecOn with
  | nil => cases h
  | append_singleton steps st ih =>
      rw [committed_append, List.mem_append] at h
      rcases h with h | h
      · obtain ⟨st', hmem, heq⟩ := ih h
        exact ⟨st', List.mem_append_left _ hmem, heq⟩
      · exact ⟨st, by simp, st.mem_commits h⟩

/-! ## The latest evidence -/

namespace FabricState

/-- A state holds the latest of the evidence that was committed. -/
structure Latest (ops : List Op) (s : FabricState) : Prop where
  topology : s.topology = latest Op.topologies ops
  policy : s.policy = latest Op.policies ops
  capability : ∀ k, s.capabilities.find? k = latest (Op.capabilities k) ops
  mark : ∀ k, (s.sources[k]?).map (fun entry ↦ (entry.seen, entry.lastSequence)) =
    (latest (Op.sequences k) ops).map fun sequence ↦ (true, sequence)

theorem latest_nil : Latest [] {} :=
  ⟨rfl, rfl, fun k ↦ Table.find?_empty k, fun k ↦ by simp⟩

theorem durableProperty_latest (ops : List Op) : DurableProperty (Latest ops) := by
  intro s t hst hs
  refine ⟨(hst .topology).trans hs.topology, (hst .policy).trans hs.policy,
    fun k ↦ (hst (.capability k)).trans (hs.capability k), fun k ↦ ?_⟩
  have hmark : (t.sources[k]?).map SourceState.unfloored =
      (s.sources[k]?).map SourceState.unfloored := hst (.mark k)
  have hcongr := congrArg (Option.map fun entry ↦ (entry.seen, entry.lastSequence)) hmark
  rw [Option.map_map, Option.map_map] at hcongr
  exact hcongr.trans (hs.mark k)

/-- Storing an assignment touches no evidence. -/
theorem Latest.storing {ops : List Op} {s : FabricState} (h : s.Latest ops)
    (assignments : Table AssignmentRecord) : ({ s with assignments } : FabricState).Latest ops :=
  ⟨h.topology, h.policy, h.capability, h.mark⟩

end FabricState

/-- A delivery moves the mark of its own source to its sequence and no other mark. -/
theorem Op.Accepts.sources {c : FabricConfig} {now : ClockReadings} {s : FabricState} {op : Op}
    {d : Delivery} (h : op.Accepts c now s d) :
    op.provenance = none ∧ d.next.sources = s.sources ∨
      ∃ source domain sequence digest, op.provenance = some (⟨source, domain⟩, sequence) ∧
        s.acceptEvidence source domain sequence digest = .ok false ∧
        d.next.sources = (s.markSource source domain sequence digest).sources := by
  cases h with
  | function => exact .inl ⟨rfl, rfl⟩
  | withdrawal _ _ => exact .inl ⟨rfl, rfl⟩
  | topology _ _ haccept => exact .inr ⟨_, _, _, _, rfl, haccept, rfl⟩
  | capabilities _ _ haccept => exact .inr ⟨_, _, _, _, rfl, haccept, rfl⟩
  | policy _ _ haccept => exact .inr ⟨_, _, _, _, rfl, haccept, rfl⟩
  | observations _ _ haccept => exact .inr ⟨_, _, _, _, rfl, haccept, rfl⟩
  | grant _ _ haccept _ => exact .inr ⟨_, _, _, _, rfl, haccept, rfl⟩

/-- A delivery that is committed is the latest. -/
theorem FabricState.Latest.delivered {c : FabricConfig} {now : ClockReadings} {s : FabricState}
    {op : Op} {d : Delivery} {ops : List Op} (hs : s.Latest ops)
    (h : op.delivery c now s = .ok (some d)) : d.next.Latest (ops ++ [op]) := by
  have haccepts := Op.delivery_accepts h
  refine ⟨?_, ?_, fun k ↦ ?_, fun k ↦ ?_⟩
  · rw [latest_append]
    cases haccepts with
    | topology _ _ _ => rfl
    | _ => exact hs.topology
  · rw [latest_append]
    cases haccepts with
    | policy _ _ _ => rfl
    | _ => exact hs.policy
  · rw [latest_append]
    cases haccepts with
    | @capabilities report _ _ _ _ =>
        change (report.records.foldl Table.insert s.capabilities).find? k = _
        rw [Table.find?_foldl_insert, hs.capability]
        unfold Op.capabilities
        rw [List.getLast?_filter]
    | _ => exact hs.capability k
  · rw [latest_append]
    unfold Op.sequences
    rcases haccepts.sources with ⟨hnone, hsources⟩ | ⟨source, domain, sequence, digest, hsome, -,
        hsources⟩
    · rw [hnone, hsources]
      exact hs.mark k
    · rw [hsome, hsources, markSource_source]
      simp only
      by_cases hk : SourceKey.mk source domain = k
      · rw [if_pos hk, if_pos hk]
        rfl
      · rw [if_neg hk, if_neg hk]
        exact hs.mark k

/-! ## Steps -/

open FabricM

namespace Fabric

variable {c : FabricConfig} {st : Step} {m m₀ : Impl} {d : Delivery}

/-- A delivery that failed recorded nothing and moved nothing. -/
theorem deliver_error {m' : Impl} {e : Error} (h : (deliver c d).exec m = (.error e, m')) :
    ∃ l, m' = { m with log := l } ∧ Settled c.bounds m.state m.log l := by
  unfold deliver at h
  rw [exec_bind, exec_liftExcept] at h
  cases hp : d.payload.encode c.bounds.maxRecordBytes.toNat with
  | error e' =>
      rw [hp] at h
      cases h
      exact ⟨m.log, rfl, .same (Log.Same.refl _)⟩
  | ok payload =>
      rw [hp] at h
      simp only at h
      rw [exec_bind] at h
      cases hx : (commit c d.type payload).exec m with
      | mk r m₁ =>
          obtain ⟨l, rfl, -, herr⟩ := commit_exec hx
          rw [hx] at h
          cases r with
          | ok u => cases h
          | error e' =>
              cases h
              exact ⟨l, rfl, herr (by simp)⟩

/-- A delivery that succeeded recorded and moved the state only. -/
private theorem deliver_next {m' : Impl} {u : Unit} (h : (deliver c d).exec m = (.ok u, m')) :
    ∃ l, m' = { m with log := l, state := d.next } := by
  unfold deliver at h
  obtain ⟨payload, m₁, hlift, h₁⟩ := exec_bind_ok h
  obtain ⟨-, rfl⟩ := exec_liftExcept_ok hlift
  obtain ⟨_, m₂, hcommit, h₂⟩ := exec_bind_ok h₁
  obtain ⟨l, rfl, -, -⟩ := commit_exec hcommit
  cases h₂
  exact ⟨l, rfl⟩

private theorem exec_register {accept : FabricState → Result (Option Delivery)}
    (h : accept m.state = .ok (some d)) :
    (register c accept).exec m = (deliver c d >>= fun _ ↦ pure ()).exec m := by
  unfold register
  rw [exec_bind, exec_getState]
  simp only
  rw [exec_bind, exec_liftExcept, h]
  exact congrArg (fun x : FabricM Unit ↦ x.exec m) (bind_pure (deliver c d)).symm

private theorem exec_ingest {accept : FabricState → Result (Option Delivery)} {now : Micros}
    (h : accept m.state = .ok (some d)) :
    (ingest c accept now).exec m = (deliver c d >>= fun _ ↦ revalidateNow c now).exec m := by
  unfold ingest
  rw [exec_bind, exec_getState]
  simp only
  rw [exec_bind, exec_liftExcept, h]

private theorem exec_guarded (x : FabricM Unit) (m : Impl) :
    ∃ e, (checkAccepting >>= fun _ ↦ x).exec m =
      if (m.running && m.recoveryAccepted) = true then x.exec m else (.error e, m) := by
  unfold checkAccepting
  simp only [exec_bind, exec_get, exec_check]
  cases hrun : m.running with
  | false => exact ⟨_, rfl⟩
  | true =>
      cases hacc : m.recoveryAccepted with
      | false => exact ⟨_, rfl⟩
      | true => exact ⟨⟨.ok, ""⟩, rfl⟩

/-- A program that delivers behind a guard: refused by it, or the delivery and what follows. -/
private theorem guarded_delivery {x y k : FabricM Unit} {admitted : Bool}
    (hx : ∃ e, x.exec m₀ = if admitted = true then y.exec m₀ else (.error e, m₀))
    (hy : y.exec m₀ = (deliver c d >>= fun _ ↦ k).exec m₀)
    (hk : ∀ m, m.state = d.next → Course c st m₀ k m) :
    admitted = false ∧ ((do x; return none : FabricM (Option AssignmentRecord)).exec m₀).2 = m₀ ∨
      admitted = true ∧ ∃ k' : FabricM (Option AssignmentRecord),
        ((do x; return none : FabricM (Option AssignmentRecord)).exec m₀).2 =
          ((deliver c d >>= fun _ ↦ k').exec m₀).2 ∧
        ∀ m, m.state = d.next → Course c st m₀ k' m := by
  obtain ⟨e, hx⟩ := hx
  cases admitted with
  | false =>
      rw [if_neg Bool.false_ne_true] at hx
      refine .inl ⟨rfl, ?_⟩
      rw [exec_bind, hx]
  | true =>
      rw [if_pos rfl, hy] at hx
      refine .inr ⟨rfl, do k; return none, ?_, fun m hm ↦ .bind (hk m hm) fun _ _ _ ↦ .pure _⟩
      rw [← bind_assoc, exec_bind, hx, exec_bind (deliver c d >>= fun _ ↦ k)]

private theorem course_revalidateNow {now : Micros}
    (hop : st.op.revalidation c st.now m₀.state = some (d.next, now))
    (hmiss : st.op.Missed c m₀.state) (m : Impl) (hm : m.state = d.next) :
    Course c st m₀ (revalidateNow c now) m := by
  unfold revalidateNow
  rw [← hm] at hop
  exact .bind (course_revalidateLocked hop hmiss _) fun _ _ _ ↦ .pure _

end Fabric

open Fabric in
/-- A step with a delivery is refused without a change, or runs the delivery and what follows. -/
theorem Step.exec_delivery {c : FabricConfig} {m : Impl} {st : Step} {d : Delivery}
    (hd : st.op.delivery c st.now m.state = .ok (some d)) :
    st.op.admittedBy m = false ∧ st.next c m = m.facing st.faults ∨
      st.op.admittedBy m = true ∧ ∃ k : FabricM (Option AssignmentRecord),
        st.next c m = ((Fabric.deliver c d >>= fun _ ↦ k).exec (m.facing st.faults)).2 ∧
        ∀ m₁, m₁.state = d.next →
          Fabric.Course c st (m.facing st.faults) k m₁ := by
  have hadmitted : ∀ op : Op, op.admittedBy m = op.admittedBy (m.facing st.faults) := fun op ↦ by
    cases op <;> rfl
  have hstate : m.state = (m.facing st.faults).state := rfl
  rw [hadmitted]
  rw [hstate] at hd
  unfold Step.next Step.exec
  generalize m.facing st.faults = m₀ at hd
  have hmissed : st.op.lookup c m₀.state = none → st.op.Missed c m₀.state := by
    intro hnone k hk
    rw [hnone] at hk
    cases hk
  have hre : ∀ t, (st.op.revalidation c st.now m₀.state = some (d.next, t)) →
      st.op.lookup c m₀.state = none → ∀ m₁, m₁.state = d.next →
      Course c st m₀ (revalidateNow c t) m₁ := fun t ht hnone m₁ hm₁ ↦
    course_revalidateNow ht (hmissed hnone) m₁ hm₁
  generalize hop : st.op = op at hd hre
  cases op with
  | registerFunction f =>
      exact guarded_delivery (exec_guarded _ _) (exec_register hd) fun _ _ ↦ .pure ()
  | grantAuthority g =>
      exact guarded_delivery (exec_guarded _ _) (exec_register hd) fun _ _ ↦ .pure ()
  | ingestTopology t =>
      refine guarded_delivery (exec_guarded _ _) (exec_ingest hd) (hre _ ?_ rfl)
      simp only [Op.revalidation, hd]
  | ingestCapabilities report =>
      refine guarded_delivery (exec_guarded _ _) (exec_ingest hd) (hre _ ?_ rfl)
      simp only [Op.revalidation, hd]
  | ingestPolicy p =>
      refine guarded_delivery (exec_guarded _ _) (exec_ingest hd) (hre _ ?_ rfl)
      simp only [Op.revalidation, hd]
  | ingestObservations report =>
      refine guarded_delivery (exec_guarded _ _) (exec_ingest hd) (hre _ ?_ rfl)
      simp only [Op.revalidation, hd]
  | withdrawAuthority id reason =>
      refine guarded_delivery ?_
        (@exec_ingest c m₀ d (·.withdrawalDelivery id reason (st.now 0)) (st.now 1) hd)
        (hre _ ?_ rfl)
      · unfold withdrawAuthority Op.admittedBy
        simp only [exec_bind, exec_get, exec_check]
        cases hrun : m₀.running with
        | false => exact ⟨_, rfl⟩
        | true => exact ⟨⟨.ok, ""⟩, rfl⟩
      · simp only [Op.revalidation, hd]
  | _ => cases hd

/-- What a step comes to for the evidence, with the evidence it commits. -/
inductive Step.Commitment (c : FabricConfig) (m : Impl) (st : Step) : List Op → Prop
  /-- There is nothing to deliver. -/
  | idle (h : m.running = true → ∀ d, st.op.delivery c st.now m.state ≠ .ok (some d)) :
      Commitment c m st []
  /-- The delivery was refused or not acknowledged. -/
  | failed {l : Log} (hrun : m.running = true) (hl : Settled c.bounds m.state m.log l)
      (hnext : st.next c m = { m with log := l }) : Commitment c m st []
  /-- The delivery is recorded and applied; the assignments may be revalidated after it. -/
  | delivered {d : Delivery} {l : Log} (hrun : m.running = true)
      (hd : st.op.delivery c st.now m.state = .ok (some d))
      (hcourse : Relation.ReflTransGen (Change c st (m.facing st.faults))
        { m with log := l, state := d.next } (st.next c m)) : Commitment c m st [st.op]

theorem Op.running_of_admittedBy {m : Impl} {op : Op} (h : op.admittedBy m = true) :
    m.running = true := by
  cases op with
  | withdrawAuthority id reason => exact h
  | _ => exact (Bool.and_eq_true_iff.mp h).1

/-- The evidence a step commits is what it delivered and recorded. -/
theorem Step.commitment (c : FabricConfig) (m : Impl) (st : Step) :
    st.Commitment c m (st.commits c m) := by
  unfold Step.commits
  split
  · next d hd =>
      rcases st.exec_delivery hd with ⟨hrefused, hnext⟩ | ⟨hadmitted, k, hnext, hk⟩
      · rw [if_neg (by rw [hrefused]; decide)]
        cases hrun : m.running with
        | false => exact .idle fun hrun' ↦ absurd (hrun.symm.trans hrun') (by decide)
        | true => exact .failed hrun (.same (m.facing_same st.faults)) hnext
      · have hrun := Op.running_of_admittedBy hadmitted
        rw [if_pos hadmitted]
        rw [exec_bind] at hnext
        cases hx : (Fabric.deliver c d).exec (m.facing st.faults) with
        | mk r m₁ =>
            rw [hx] at hnext
            cases r with
            | error e =>
                obtain ⟨l, rfl, hl⟩ := Fabric.deliver_error hx
                exact .failed hrun (hl.same_left (m.facing_same st.faults)) hnext
            | ok u =>
                obtain ⟨l, rfl⟩ := Fabric.deliver_next hx
                refine .delivered (l := l) hrun hd ?_
                rw [hnext]
                exact hk _ rfl
  · next hnone => exact .idle fun _ d hd ↦ hnone d hd

/-! ## Runs -/

variable {c : FabricConfig} {m : Impl} {ops : List Op}

/-- A step moves the latest evidence on by what it commits. -/
theorem Impl.Keeps.latest (hstore : c.hasStore = true) (hdurable : m.Durable c)
    (h : m.Keeps c (Latest ops)) (st : Step) :
    (st.next c m).Keeps c (Latest (ops ++ st.commits c m)) := by
  have hnext := hdurable.next hstore st
  have hcommitment := st.commitment c m
  generalize st.commits c m = new at hcommitment
  cases hcommitment with
  | idle hnone =>
      rw [List.append_nil]
      exact h.next hstore hdurable (durableProperty_latest ops) st
        (fun hrun d hd ↦ absurd hd (hnone hrun d)) (fun _ _ _ _ _ hs ↦ hs.storing _)
        fun _ _ _ _ _ _ _ hs ↦ hs.storing _
  | @failed l hrun hl heq =>
      rw [List.append_nil, heq]
      refine ⟨fun f hf ↦ ?_, h.held⟩
      rcases hf.settled hl with hf | hf
      · exact h.recalled f hf
      · rw [hf]
        exact durableProperty_latest ops _ _ (fun k ↦ durable_restored _ k) (h.held hrun)
  | @delivered d l hrun hd hcourse =>
      have hlatest : d.next.Latest (ops ++ [st.op]) := (h.held hrun).delivered hd
      suffices hall : (st.next c m).running = true ∧
          (st.next c m).state.Latest (ops ++ [st.op]) from
        .of_running hnext (durableProperty_latest _) hall.1 hall.2
      have hop : st.op ≠ .crash ∧ st.op ≠ .shutdown := by
        constructor
        all_goals
          intro hop
          rw [hop] at hd
          cases hd
      clear hnext
      generalize st.next c m = m' at hcourse
      induction hcourse with
      | refl => exact ⟨hrun, hlatest⟩
      | tail _ hc ih =>
          refine ⟨(hc.flags hop.1 hop.2).1.trans ih.1, ?_⟩
          rcases hc.durable_cases hop.1 with hsame | ⟨d', heq, hd', hnext⟩ | ⟨v, -, -, hstored⟩
          · exact durableProperty_latest _ _ _ hsame ih.2
          · -- the evidence of the step is delivered in the state it began with
            rw [heq] at hd'
            obtain rfl : d = d' := Option.some.inj (Except.ok.inj (hd.symm.trans hd'))
            rw [hnext]
            exact hlatest
          · exact durableProperty_latest _ _ _ hstored (ih.2.storing _)

/-- **The latest evidence.** A running runtime holds the latest of the evidence its run has
committed, and so does every recovery of its log. -/
theorem keeps_latest (hstore : c.hasStore = true) (steps : List Step) :
    (run c steps).Keeps c (Latest (committed c steps)) := by
  refine run_induction (P := fun steps m ↦ m.Keeps c (Latest (committed c steps))) ?_
    (fun steps st h ↦ ?_) steps
  · exact .nil latest_nil
  · rw [committed_append]
    exact h.latest hstore (Impl.Durable.run hstore steps) st

end OffloadFabric
