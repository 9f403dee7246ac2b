import OffloadFabric.Fabric.Steps
import OffloadFabric.Fabric.Durable

/-!
# The durable mirror

A running runtime holds exactly what a recovery of its log gives back of the durable values,
whatever faults its durable calls met, and a recovery into used memory gives back the same. So
a property of the durable values that every step keeps outlasts crashes and restarts.
-/

namespace OffloadFabric

open Lib Lib.Fallible FabricState

/-- What a runtime holds is what a recovery of its log gives back. -/
def Impl.Mirrors (c : FabricConfig) (m : Impl) : Prop :=
  ∀ f, m.log.Recovers c.bounds f → ∀ k, m.state.durable k = (f {}).durable k

/-- A recovery into what a runtime holds gives back the same as one into a new runtime. -/
def Impl.Recoverable (c : FabricConfig) (m : Impl) : Prop :=
  ∀ f, m.log.Recovers c.bounds f → ∀ k, (f m.state).durable k = (f {}).durable k

namespace Impl.Mirrors

variable {c : FabricConfig} {m m' : Impl}

theorem recoverable (h : m.Mirrors c) : m.Recoverable c := fun f hf k ↦
  (hf.settles k).absorb k.correct_correct (h f hf k)

/-- A change of nothing durable. -/
theorem of_eq (h : m.Mirrors c) (hs : ∀ k, m'.state.durable k = m.state.durable k)
    (hl : m.log.Same m'.log) : m'.Mirrors c := fun f hf k ↦
  (hs k).trans (h f (hf.same hl) k)

theorem settled (h : m.Mirrors c) (hs : ∀ k, m'.state.durable k = m.state.durable k)
    (hl : Settled c.bounds m.state m.log m'.log) : m'.Mirrors c := by
  intro f hf k
  rcases hf.settled hl with hf | hf
  · exact (hs k).trans (h f hf k)
  · rw [hf {}, hs k, durable_restored]

/-- A commit, with the effect of its record on what is durable. -/
theorem recorded {type : RecordType} {payload : Bytes} (h : m.Mirrors c)
    (hl : Recorded c.bounds m.state type payload m.log m'.log)
    (hs : ∀ g, Replays c.bounds type payload g → ∀ k,
      m'.state.durable k = (g m.state).durable k) : m'.Mirrors c := by
  intro f hf k
  obtain ⟨f₀, g, hf₀, hg, heq⟩ := hf.recorded hl
  rw [hs g hg k, heq {}]
  refine (Replays.settles hg k).congr ?_
  rcases hf₀ with hf₀ | hf₀
  · exact h f₀ hf₀ k
  · rw [hf₀ {}, durable_restored]

theorem commits {type : RecordType} {payload : Bytes} (h : m.Mirrors c)
    (hopen : m.storeOpen = true) (hl : Commits c m type payload m'.log)
    (hs : ∀ g, Replays c.bounds type payload g → ∀ k,
      m'.state.durable k = (g m.state).durable k) : m'.Mirrors c :=
  h.recorded ((if_pos hopen).mp hl) hs

/-- Every change keeps the mirror, while the store is open. -/
theorem change {st : Step} {m₀ : Impl} (h : m.Mirrors c) (hc : Change c st m₀ m m')
    (hcrash : st.op ≠ .crash) (hopen : st.op ≠ .shutdown → m.storeOpen = true) :
    m'.Mirrors c := by
  have hplain : ∀ {type payload}, Commits c m type payload m'.log →
      type ∈ [.epochStarted, .reassignmentRecorded, .requestRecorded, .scopeReleased,
        .snapshotBase, .storeSealed] →
      (∀ k, m'.state.durable k = m.state.durable k) → m'.Mirrors c := by
    intro type payload hl htype hs
    unfold Commits at hl
    split at hl
    · exact h.recorded hl fun g hg k ↦ (hs k).trans (hg.durable_eq htype m.state k).symm
    · exact h.of_eq hs (hl ▸ Log.Same.refl _)
  cases hc with
  | settled hl => exact h.settled (fun _ ↦ rfl) hl
  | delivered hm hd hp hl =>
      refine h.commits (hopen fun hop ↦ ?_) hl fun g hg k ↦ Op.delivery_durable hd hp hg k
      rw [hop] at hd
      cases hd
  | stored hmiss hv hp hr hl =>
      refine h.commits (hopen fun hop ↦ ?_) hl fun g hg k ↦ ?_
      · rw [hop] at hv
        cases hv with
        | revalidated hrev _ _ _ _ => cases hrev
        | superseded ha _ _ _ => cases ha.asked
        | created ha _ _ => cases ha.asked
      · obtain ⟨response', t', -, hg⟩ := hp.effect_eq hg.effect
        rw [hg]
        exact (durable_storing _ _ _ _ _ k).trans (durable_storing _ _ _ _ _ k).symm
  | refused hmiss hid hk hr hp hl =>
      exact hplain hl (by decide) fun k ↦ durable_recordIdempotency _ _ _ _ _
  | stamped => exact h.of_eq (fun k ↦ durable_pushReassignment _ _ _ _ _) (Log.Same.refl _)
  | noted hp hl => exact hplain hl (by decide) fun k ↦ rfl
  | issued hop hi => exact h.of_eq (fun k ↦ hi.durable k) (Log.Same.refl _)
  | sealed hop hsnapshot hrecords =>
      refine h.recorded ⟨m.log, .same (Log.Same.refl _), hsnapshot, hrecords⟩ fun g hg k ↦ ?_
      exact (hg.durable_eq (by decide) m.state k).symm
  | crashed hop => exact absurd hop hcrash
  | _ => exact h.of_eq (fun _ ↦ rfl) (Log.Same.refl _)

/-- The suspensions of a start keep the mirror. -/
theorem suspends {now : Micros} (h : m.Mirrors c) (hopen : m.storeOpen = true)
    (hc : Suspends c now m m') : m'.Mirrors c ∧ m'.storeOpen = true := by
  cases hc with
  | settled hl => exact ⟨h.settled (fun _ ↦ rfl) hl, hopen⟩
  | stored hfind hlive hne hr hp hl =>
      refine ⟨h.commits hopen hl fun g hg k ↦ ?_, hopen⟩
      obtain ⟨response', t', -, hg⟩ := hp.effect_eq hg.effect
      rw [hg, durable_storing]
      exact durable_insertAssignment _ _ k

end Impl.Mirrors

/-- The store of a runtime stays open while it runs. -/
theorem Change.storeOpen_of_running {c : FabricConfig} {st : Step} {m₀ m m' : Impl}
    (h : Change c st m₀ m m') (hcrash : st.op ≠ .crash)
    (hopen : m.running = true → m.storeOpen = true) :
    m'.running = true → m'.storeOpen = true := by
  cases h with
  | closed hop =>
      intro hrun
      cases hrun
  | crashed hop => exact absurd hop hcrash
  | _ => exact hopen

/-- A runtime whose log gives back what is durable: into used memory as into new, and while it
runs, what it holds. -/
structure Impl.Durable (c : FabricConfig) (m : Impl) : Prop where
  recoverable : m.Recoverable c
  live : m.running = true → m.storeOpen = true ∧ m.Mirrors c

namespace Impl.Durable

variable {c : FabricConfig} {m m' : Impl}

theorem facing (h : m.Durable c) (faults : List Fault) : (m.facing faults).Durable c where
  recoverable f hf := h.recoverable f (hf.same (m.facing_same faults))
  live hrun := ⟨(h.live hrun).1, (h.live hrun).2.of_eq (fun _ ↦ rfl) (m.facing_same faults)⟩

theorem of_mirrors (h : m.Mirrors c) (hopen : m.storeOpen = true) : m.Durable c :=
  ⟨h.recoverable, fun _ ↦ ⟨hopen, h⟩⟩

/-- A start that got as far as its epoch mirrors its log. -/
theorem restarted {boot : BootId} (h : m.Durable c) (hr : Restarted c boot m m') :
    m'.Mirrors c ∧ m'.storeOpen = true := by
  obtain ⟨l, s, counter, payload, l', hl, hrec, hn, hp, hcommit, rfl⟩ := hr.exists_recovery
  obtain ⟨f, hf, rfl⟩ := Log.Recovers.of_exec hrec
  refine ⟨?_, rfl⟩
  have hrestarting : Impl.Mirrors c
      { m.opened l with state := (f m.state).restarting counter boot } := by
    intro f' hf' k
    rw [hf'.unique hf]
    exact (durable_restarting _ _ _ k).trans (h.recoverable f (hf.same hl) k)
  refine hrestarting.recorded hcommit fun g hg k ↦ ?_
  rw [hg.durable_eq (by decide)]
  exact durable_applyRecoveryInvariants _ k

/-- The suspension loop of a start keeps the mirror. -/
theorem suspends_all {now : Micros} {m₁ m₂ : Impl} (h : m₁.Mirrors c ∧ m₁.storeOpen = true)
    (hs : Relation.ReflTransGen (Suspends c now) m₁ m₂) : m₂.Mirrors c ∧ m₂.storeOpen = true := by
  induction hs with
  | refl => exact h
  | tail _ hc ih => exact ih.1.suspends ih.2 hc

theorem start {now : Micros} {boot : BootId} (hstore : c.hasStore = true) (h : m.Durable c)
    (hs : Start c now boot m m') : m'.Durable c := by
  have hidle : ∀ {m₁ : Impl}, m.running = false → m₁.running = m.running → m₁.Recoverable c →
      m₁.Durable c := fun hrun heq hr ↦
    ⟨hr, fun hrun' ↦ absurd (hrun'.symm.trans (heq.trans hrun)) (by decide)⟩
  cases hs with
  | refused hl =>
      exact ⟨fun f hf ↦ h.recoverable f (hf.same hl), fun hrun ↦
        ⟨(h.live hrun).1, (h.live hrun).2.of_eq (fun _ ↦ rfl) hl⟩⟩
  | bare hbare _ => exact absurd (hstore.symm.trans hbare) (by decide)
  | @unreadable l s e _ hrun hl hr =>
      refine hidle hrun rfl fun f hf ↦ ?_
      have hok : (Fabric.recover c.bounds l).exec m.state = (.ok (), f m.state) := hf m.state
      rw [hr] at hok
      cases hok
  | @exhausted l s _ hrun hl hr =>
      obtain ⟨f, hf, rfl⟩ := Log.Recovers.of_exec hr
      refine hidle hrun rfl (Impl.Mirrors.recoverable fun f' hf' k ↦ ?_)
      rw [hf'.unique hf]
      exact (durable_rebuildIndexes _ k).trans (h.recoverable f (hf.same hl) k)
  | @unrecorded l l' s counter _ hrun hl hr hn hsettled =>
      obtain ⟨f, hf, rfl⟩ := Log.Recovers.of_exec hr
      have hrestarting : Impl.Mirrors c
          { m.opened l with state := (f m.state).restarting counter boot } := fun f' hf' k ↦ by
        rw [hf'.unique hf]
        exact (durable_restarting _ _ _ k).trans (h.recoverable f (hf.same hl) k)
      have hm : Impl.Mirrors c
          { m.opened l' with state := (f m.state).restarting counter boot } :=
        hrestarting.settled (fun _ ↦ rfl) hsettled
      exact hidle hrun rfl hm.recoverable
  | suspending _ hr hs =>
      have hm := suspends_all (h.restarted hr) hs
      exact of_mirrors hm.1 hm.2
  | launched _ hr hs _ =>
      have hm := suspends_all (h.restarted hr) hs
      exact of_mirrors (hm.1.of_eq (fun _ ↦ rfl) (Log.Same.refl _)) hm.2

/-- A running step that is no crash ends in the mirror of its log. -/
theorem active (h : m.Durable c) (st : Step) (hstart : ∀ boot, st.op ≠ .start boot)
    (hcrash : st.op ≠ .crash) (hrun : m.running = true) :
    (st.next c m).Mirrors c ∧ ((st.next c m).running = true → (st.next c m).storeOpen = true) := by
  obtain ⟨hopen, hmirrors⟩ := (h.facing st.faults).live hrun
  exact st.active
    (P := fun m' ↦ m'.Mirrors c ∧ (m'.running = true → m'.storeOpen = true))
    hstart hcrash ⟨hmirrors, fun _ ↦ hopen⟩ fun m₁ m₂ hc hflags hm ↦
      ⟨hm.1.change hc hcrash fun hne ↦ (hflags hne).2.trans hopen,
        hc.storeOpen_of_running hcrash hm.2⟩

/-- Every step keeps what is durable. -/
theorem next (hstore : c.hasStore = true) (h : m.Durable c) (st : Step) :
    (st.next c m).Durable c := by
  have hfacing := h.facing st.faults
  by_cases hstart : ∃ boot, st.op = .start boot
  · obtain ⟨boot, hop⟩ := hstart
    exact hfacing.start hstore (st.start_next c m hop)
  have hstart : ∀ boot, st.op ≠ .start boot := fun boot hop ↦ hstart ⟨boot, hop⟩
  have hidle : ∀ {m₁ : Impl}, m₁.running = false → m₁.Recoverable c → m₁.Durable c :=
    fun hrun hr ↦ ⟨hr, fun hrun' ↦ absurd (hrun'.symm.trans hrun) (by decide)⟩
  by_cases hcrash : st.op = .crash
  · rw [st.next_crash c m hcrash]
    exact hidle rfl fun f _ k ↦ rfl
  cases hrun : m.running with
  | false =>
      rcases st.next_idle c m hstart hrun with ⟨b, heq⟩ | ⟨hop, -⟩
      · rw [heq]
        exact hidle hrun hfacing.recoverable
      · exact absurd hop hcrash
  | true =>
      obtain ⟨hm, hopen⟩ := h.active st hstart hcrash hrun
      exact ⟨hm.recoverable, fun hrun ↦ ⟨hopen hrun, hm⟩⟩

/-- What is durable after every run. -/
theorem run (hstore : c.hasStore = true) (steps : List Step) : (run c steps).Durable c :=
  run_induction (P := fun _ m ↦ m.Durable c)
    ⟨fun f _ k ↦ rfl, fun hrun ↦ absurd hrun (by decide)⟩ (fun _ st h ↦ h.next hstore st) steps

end Impl.Durable

/-! ## Properties of what is durable -/

/-- A property that depends only on the durable values of a state. -/
def DurableProperty (P : FabricState → Prop) : Prop :=
  ∀ s t : FabricState, (∀ k, t.durable k = s.durable k) → P s → P t

/-- A property of every recovery of a log, and of the state while the runtime runs. -/
structure Impl.Keeps (c : FabricConfig) (P : FabricState → Prop) (m : Impl) : Prop where
  recalled : ∀ f, m.log.Recovers c.bounds f → P (f {})
  held : m.running = true → P m.state

/-- A change delivers evidence, stores an assignment, or leaves what is durable. -/
theorem Change.durable_cases {c : FabricConfig} {st : Step} {m₀ m m' : Impl}
    (h : Change c st m₀ m m') (hcrash : st.op ≠ .crash) :
    (∀ k, m'.state.durable k = m.state.durable k) ∨
      (∃ d, m.state = m₀.state ∧ st.op.delivery c st.now m.state = .ok (some d) ∧
        m'.state = d.next) ∨
      ∃ v, st.op.Missed c m₀.state ∧ Stores c st.now m₀.state m.state st.op v ∧
        ∀ k, m'.state.durable k =
          ({ m.state with assignments := m.state.assignments.insert v.record } :
            FabricState).durable k := by
  cases h with
  | delivered hm hd hp hl => exact .inr (.inl ⟨_, hm, hd, rfl⟩)
  | stored hmiss hv hp hr hl =>
      exact .inr (.inr ⟨_, hmiss, hv, fun k ↦ durable_storing _ _ _ _ _ k⟩)
  | refused hmiss hid hk hr hp hl => exact .inl fun k ↦ durable_recordIdempotency _ _ _ _ _
  | stamped => exact .inl fun k ↦ durable_pushReassignment _ _ _ _ _
  | issued hop hi => exact .inl fun k ↦ hi.durable k
  | crashed hop => exact absurd hop hcrash
  | _ => exact .inl fun _ ↦ rfl

namespace Impl.Keeps

variable {c : FabricConfig} {P : FabricState → Prop} {m m' : Impl}

private theorem of_mirrors (hP : DurableProperty P) (hm : m.Mirrors c) (h : P m.state) :
    m.Keeps c P :=
  ⟨fun f hf ↦ hP m.state (f {}) (fun k ↦ (hm f hf k).symm) h, fun _ ↦ h⟩

/-- What holds of a running runtime, every recovery of its log gives back. -/
theorem of_running (hd : m.Durable c) (hP : DurableProperty P) (hrun : m.running = true)
    (h : P m.state) : m.Keeps c P :=
  of_mirrors hP (hd.live hrun).2 h

/-- What an empty state has, a new runtime keeps. -/
theorem nil (h : P {}) : Impl.Keeps c P {} := by
  refine ⟨fun f hf ↦ ?_, fun hrun ↦ by cases hrun⟩
  have heq : ((.ok (), {}) : Except Error Unit × FabricState) = (.ok (), f {}) := hf {}
  rw [← (Prod.mk.inj heq).2]
  exact h

/-- A start keeps a durable property that its suspensions keep. -/
theorem start {now : Micros} {boot : BootId} (hstore : c.hasStore = true) (hd : m.Durable c)
    (hP : DurableProperty P) (h : m.Keeps c P) (hs : Start c now boot m m')
    (hsuspends : ∀ (s : FabricState) (r : AssignmentRecord),
      s.assignments.find? r.id = some r → r.state.isLive = true → r.state ≠ .suspended → P s →
      P { s with
        assignments :=
          s.assignments.insert (r.enter c.bounds .suspended .restartAuthorityReset now) }) :
    m'.Keeps c P := by
  have hidle : ∀ {m₁ : Impl}, m.running = false → m₁.running = m.running →
      (∀ f, m₁.log.Recovers c.bounds f → P (f {})) → m₁.Keeps c P := fun hrun heq hr ↦
    ⟨hr, fun hrun' ↦ absurd (hrun'.symm.trans (heq.trans hrun)) (by decide)⟩
  have hsame : ∀ {l : Log}, m.log.Same l → ∀ f, l.Recovers c.bounds f → P (f {}) :=
    fun hl f hf ↦ h.recalled f (hf.same hl)
  have hrecovered : ∀ {l : Log} {f : FabricState → FabricState}, m.log.Same l →
      l.Recovers c.bounds f → P (f m.state) := fun hl hf ↦
    hP _ _ (fun k ↦ hd.recoverable _ (hf.same hl) k) (hsame hl _ hf)
  have hrestarted : ∀ {m₁ m₂ : Impl}, Restarted c boot m m₁ →
      Relation.ReflTransGen (Suspends c now) m₁ m₂ → m₂.Mirrors c ∧ P m₂.state := by
    intro m₁ m₂ hr hs
    refine ⟨(Impl.Durable.suspends_all (hd.restarted hr) hs).1, ?_⟩
    induction hs with
    | refl =>
        obtain ⟨l, s, counter, payload, l', hl, hrec, hn, hp, hcommit, rfl⟩ := hr.exists_recovery
        obtain ⟨f, hf, rfl⟩ := Log.Recovers.of_exec hrec
        refine hP _ _ (fun k ↦ ?_) (hrecovered hl hf)
        exact (durable_applyRecoveryInvariants _ k).trans (durable_restarting _ _ _ k)
    | tail _ hc ih =>
        cases hc with
        | settled _ => exact ih
        | stored hfind hlive hne hr _ _ =>
            subst hr
            exact hP _ _ (durable_insertAssignment _ _) (hsuspends _ _ hfind hlive hne ih)
  cases hs with
  | refused hl => exact ⟨hsame hl, h.held⟩
  | bare hbare _ => exact absurd (hstore.symm.trans hbare) (by decide)
  | unreadable _ hrun hl hr => exact hidle hrun rfl (hsame hl)
  | exhausted _ hrun hl hr => exact hidle hrun rfl (hsame hl)
  | unrecorded _ hrun hl hr hn hsettled =>
      obtain ⟨f, hf, rfl⟩ := Log.Recovers.of_exec hr
      refine hidle hrun rfl fun f' hf' ↦ ?_
      rcases hf'.settled hsettled with hf' | hf'
      · exact hsame hl f' hf'
      · refine hP _ _ (fun k ↦ ?_) (hrecovered hl hf)
        rw [hf', durable_restored, durable_restarting]
  | suspending _ hr hs =>
      obtain ⟨hm, hstate⟩ := hrestarted hr hs
      exact of_mirrors hP hm hstate
  | launched _ hr hs _ =>
      obtain ⟨hm, hstate⟩ := hrestarted hr hs
      exact of_mirrors hP (hm.of_eq (fun _ ↦ rfl) (Log.Same.refl _)) hstate

/-- A step keeps a durable property that what it delivers and stores keeps. -/
theorem next (hstore : c.hasStore = true) (hd : m.Durable c) (hP : DurableProperty P)
    (h : m.Keeps c P) (st : Step)
    (hdelivered : m.running = true → ∀ d, st.op.delivery c st.now m.state = .ok (some d) →
      P m.state → P d.next)
    (hstored : m.running = true → ∀ s v, st.op.Missed c m.state →
      Stores c st.now m.state s st.op v → P s →
      P { s with assignments := s.assignments.insert v.record })
    (hsuspends : ∀ boot, st.op = .start boot → ∀ (s : FabricState) (r : AssignmentRecord),
      s.assignments.find? r.id = some r → r.state.isLive = true → r.state ≠ .suspended → P s →
      P { s with
        assignments :=
          s.assignments.insert (r.enter c.bounds .suspended .restartAuthorityReset (st.now 0)) }) :
    (st.next c m).Keeps c P := by
  have hfacing : (m.facing st.faults).Keeps c P :=
    ⟨fun f hf ↦ h.recalled f (hf.same (m.facing_same st.faults)), h.held⟩
  by_cases hstart : ∃ boot, st.op = .start boot
  · obtain ⟨boot, hop⟩ := hstart
    exact hfacing.start hstore (hd.facing st.faults) hP (st.start_next c m hop)
      (hsuspends boot hop)
  have hstart : ∀ boot, st.op ≠ .start boot := fun boot hop ↦ hstart ⟨boot, hop⟩
  by_cases hcrash : st.op = .crash
  · rw [st.next_crash c m hcrash]
    exact ⟨hfacing.recalled, fun hrun ↦ by cases hrun⟩
  cases hrun : m.running with
  | false =>
      rcases st.next_idle c m hstart hrun with ⟨b, heq⟩ | ⟨hop, -⟩
      · rw [heq]
        exact ⟨hfacing.recalled, hfacing.held⟩
      · exact absurd hop hcrash
  | true =>
      refine of_mirrors hP (hd.active st hstart hcrash hrun).1 ?_
      refine st.active (P := fun m' ↦ P m'.state) hstart hcrash (h.held hrun)
        fun m₁ m₂ hc _ hs ↦ ?_
      rcases hc.durable_cases hcrash with hsame | ⟨d, heq, hdel, hnext⟩ | ⟨v, hmiss, hv, hnext⟩
      · exact hP _ _ hsame hs
      · rw [hnext]
        rw [heq] at hs hdel
        exact hdelivered hrun d hdel hs
      · exact hP _ _ hnext (hstored hrun _ v hmiss hv hs)

end Impl.Keeps

section

variable {c : FabricConfig} {P : FabricState → Prop}

/-- Without a store a runtime keeps in memory what its deliveries and stores keep. -/
private theorem Step.keeps_bare {m : Impl} (hstore : c.hasStore = false) (hP : DurableProperty P)
    (hnil : P {})
    (hdelivered : ∀ now s op d, Op.delivery c now s op = .ok (some d) → P s → P d.next)
    (hassignments : ∀ (s : FabricState) assignments, P s → P { s with assignments })
    (h : P m.state) (st : Step) : P (st.next c m).state := by
  by_cases hstart : ∃ boot, st.op = .start boot
  · obtain ⟨boot, hop⟩ := hstart
    have hnext := st.start_next c m hop
    have hbare : ∀ {p : Prop}, c.hasStore = true → p := fun htrue ↦
      absurd (htrue.symm.trans hstore) (by decide)
    generalize st.next c m = m' at hnext
    cases hnext with
    | refused _ => exact h
    | bare _ _ => exact hP _ _ (fun k ↦ by cases k <;> rfl) h
    | unreadable hstore _ _ _ => exact hbare hstore
    | exhausted hstore _ _ _ => exact hbare hstore
    | unrecorded hstore _ _ _ _ _ => exact hbare hstore
    | suspending hstore _ _ => exact hbare hstore
    | launched hstore _ _ _ => exact hbare hstore
  have hstart : ∀ boot, st.op ≠ .start boot := fun boot hop ↦ hstart ⟨boot, hop⟩
  by_cases hcrash : st.op = .crash
  · rw [st.next_crash c m hcrash]
    exact hnil
  refine st.active (P := fun m' ↦ P m'.state) hstart hcrash h fun m₁ m₂ hc _ hs ↦ ?_
  rcases hc.durable_cases hcrash with hsame | ⟨d, -, hdel, hnext⟩ | ⟨v, -, -, hnext⟩
  · exact hP _ _ hsame hs
  · rw [hnext]
    exact hdelivered _ _ _ d hdel hs
  · exact hP _ _ hnext (hassignments _ _ hs)

/-- What is durable, every delivery keeps and no assignment matters to, holds of a running
runtime after every run, with a store and without. -/
theorem run_durable (hP : DurableProperty P) (hnil : P {})
    (hdelivered : ∀ now s op d, Op.delivery c now s op = .ok (some d) → P s → P d.next)
    (hassignments : ∀ (s : FabricState) assignments, P s → P { s with assignments })
    (steps : List Step) (hrun : (run c steps).running = true) : P (run c steps).state := by
  cases hstore : c.hasStore with
  | true =>
      refine (run_induction (P := fun _ m ↦ m.Keeps c P) (.nil hnil) (fun steps st h ↦ ?_)
        steps).held hrun
      exact h.next hstore (Impl.Durable.run hstore steps) hP st
        (fun _ d hd hs ↦ hdelivered _ _ _ d hd hs) (fun _ _ _ _ _ hs ↦ hassignments _ _ hs)
        fun _ _ _ _ _ _ _ hs ↦ hassignments _ _ hs
  | false =>
      exact run_induction (P := fun _ m ↦ P m.state) hnil
        (fun _ st h ↦ Step.keeps_bare hstore hP hnil hdelivered hassignments h st) steps

end

end OffloadFabric
