import OffloadFabric.Fabric.Accounting
import OffloadFabric.Fabric.Claims

/-!
# Invariants of the stores

What the indexes of a state say about its assignments changes at a store and at a rebuilding only.
A property of them that every store keeps and every rebuilding establishes holds in every state of
every run, also in those that a start left on its way.
-/

namespace OffloadFabric

open Lib Lib.Fallible FabricState

namespace FabricState

/-- Two states have the same assignments and the same indexes of them. -/
structure SameIndexes (s t : FabricState) : Prop where
  assignments : t.assignments = s.assignments
  byClass : t.exclusiveByClass = s.exclusiveByClass
  byScope : t.exclusiveByScope = s.exclusiveByScope
  committed : t.committed = s.committed

/-- A property of the indexes that the stores keep, that a rebuilding establishes, and that holds
of a state without indexes. -/
structure StoreInvariant (I : FabricState → Prop) : Prop where
  bare : ∀ s : FabricState, s.exclusiveByClass = ∅ → s.exclusiveByScope = ∅ → s.committed = ∅ → I s
  same : ∀ s t, SameIndexes s t → I s → I t
  store : ∀ (s : FabricState) r, I s → I (s.insertAssignment r)
  rebuild : ∀ s : FabricState, I s.rebuildIndexes

end FabricState

namespace FabricState.StoreInvariant

variable {I : FabricState → Prop} {s t : FabricState} {c : FabricConfig} {m m' : Impl}

theorem recordIdempotency (h : StoreInvariant I) (hs : I s) (b : Bounds) (id : RequestId)
    (entry : IdempotencyEntry) : I (s.recordIdempotency b id entry) := by
  refine h.same s _ ?_ hs
  rw [recordIdempotency_eq]
  exact ⟨rfl, rfl, rfl, rfl⟩

theorem storing (h : StoreInvariant I) (hs : I s) (b : Bounds) (v : RecordedAssignment)
    (response : Bytes) (now : Micros) : I (s.storing b v response now) :=
  h.recordIdempotency (h.store s v.record hs) b _ _

theorem change (h : StoreInvariant I) {st : Step} {m₀ : Impl} (hc : Change c st m₀ m m')
    (hm : I m.state) : I m'.state := by
  cases hc with
  | delivered _ hd _ _ =>
    refine h.same m.state _ ?_ hm
    rw [Op.delivery_next hd]
    exact ⟨rfl, rfl, rfl, rfl⟩
  | stored _ _ _ _ _ => exact h.storing hm _ _ _ _
  | refused _ _ _ _ _ _ => exact h.recordIdempotency hm _ _ _
  | issued _ hi => cases hi <;> exact h.same m.state _ ⟨rfl, rfl, rfl, rfl⟩ hm
  | stamped => exact h.same m.state _ ⟨rfl, rfl, rfl, rfl⟩ hm
  | crashed _ => exact h.bare _ rfl rfl rfl
  | _ => exact hm

/-! ## Recoveries -/

private theorem effect (h : StoreInvariant I) {b : Bounds} {type : RecordType} {payload : Bytes}
    {f : FabricState → FabricState} (hf : Effect b payload type f) (hs : I s) : I (f s) := by
  cases hf with
  | epoch _ => exact h.same s _ ⟨rfl, rfl, rfl, rfl⟩ hs
  | assignment _ _ => exact h.storing hs _ _ _ _
  | request _ => exact h.recordIdempotency hs _ _ _
  | withdrawal _ hf _ =>
    refine h.same s _ ?_ hs
    rw [hf s]
    exact ⟨rfl, rfl, rfl, rfl⟩
  | evidence _ hf =>
    refine h.same s _ ?_ hs
    rw [hf s]
    exact ⟨rfl, rfl, rfl, rfl⟩

/-- A replay stops or runs through with the property. -/
private theorem replay (h : StoreInvariant I) {b : Bounds} {records : List (RecordType × Bytes)}
    (hs : I s) : I ((FabricState.replay b records).exec s).2 := by
  induction records generalizing s with
  | nil => exact hs
  | cons record records ih =>
    unfold FabricState.replay
    rw [exec_bind]
    rcases applyRecord_uniform b record.1 record.2 with herr | ⟨f, hf, hok⟩
    · obtain ⟨e, t, he, hstop⟩ := herr s
      rw [he]
      rcases hstop with rfl | ⟨v, -, rfl⟩
      · exact hs
      · exact h.store s v.record hs
    · rw [hok]
      exact ih (h.effect hf hs)

/-- Whatever a reader reads has a property. -/
private def Yields {α : Type} (d : Reader α) (P : α → Prop) : Prop :=
  ∀ n p a rest, d.run n p = (.ok a, rest) → P a

private theorem Yields.bind {α β : Type} {P : β → Prop} {d : Reader α}
    {f : α → Reader β} (h : ∀ a, Yields (f a) P) : Yields (d >>= f) P := by
  intro n p b rest hrun
  obtain ⟨a, rest', -, hf⟩ := Coder.run_bind_ok hrun
  exact h a n rest' b rest hf

/-- A snapshot has no indexes. -/
private theorem openSnapshot_bare {b : Bounds} {envelope : Bytes}
    (ho : Fabric.openSnapshot b envelope = .ok s) :
    s.exclusiveByClass = ∅ ∧ s.exclusiveByScope = ∅ ∧ s.committed = ∅ := by
  have hfields : Yields (Wire.decStateFields b) fun t ↦
      t.exclusiveByClass = ∅ ∧ t.exclusiveByScope = ∅ ∧ t.committed = ∅ := by
    unfold Wire.decStateFields
    refine .bind fun version ↦ ?_
    split
    · intro n p a rest hrun
      cases hrun
    · repeat refine .bind fun _ ↦ ?_
      intro n p a rest hrun
      cases hrun
      exact ⟨rfl, rfl, rfl⟩
  obtain ⟨x, -, hchecked⟩ := bind_eq_ok.mp ho
  obtain ⟨-, hchecked⟩ := require_bind_eq_ok.mp hchecked
  obtain ⟨-, hdecode⟩ := require_bind_eq_ok.mp hchecked
  obtain ⟨rest, hrun⟩ : ∃ rest, (Wire.decState b).run b.maxTextBytes.toNat x.1 = (.ok s, rest) :=
    ⟨_, Prod.ext hdecode rfl⟩
  unfold Wire.decState at hrun
  obtain ⟨t, rest', ht, hend⟩ := Coder.run_bind_ok hrun
  obtain ⟨atEnd, rest'', -, hpure⟩ := Coder.run_bind_ok hend
  split at hpure
  · cases hpure
    exact hfields _ _ _ _ ht
  · cases hpure

/-- A recovery has the property wherever it stops. -/
theorem recover (h : StoreInvariant I) (hs : I s) {b : Bounds} {l : Log} :
    I ((Fabric.recover b l).exec s).2 := by
  unfold Fabric.recover
  cases l.snapshot with
  | none => exact h.replay hs
  | some envelope =>
    simp only
    rw [exec_bind, exec_liftExcept]
    cases ho : Fabric.openSnapshot b envelope with
    | error e => exact hs
    | ok base =>
      simp only
      rw [exec_bind, exec_set]
      obtain ⟨hclass, hscope, hcommitted⟩ := openSnapshot_bare ho
      exact h.replay (h.bare base hclass hscope hcommitted)

theorem start (h : StoreInvariant I) {now : Micros} {boot : BootId}
    (hstart : Start c now boot m m') (hm : I m.state) : I m'.state := by
  have hrestarted : ∀ {m₁ m₂ : Impl}, Restarted c boot m m₁ →
      Relation.ReflTransGen (Suspends c now) m₁ m₂ → I m₂.state := by
    intro m₁ m₂ hr hs
    induction hs with
    | refl =>
      obtain ⟨l, s, counter, payload, l', -, -, -, -, -, rfl⟩ := hr.exists_recovery
      exact h.same s.rebuildIndexes _ ⟨rfl, rfl, rfl, rfl⟩ (h.rebuild s)
    | tail _ hc ih =>
      cases hc with
      | settled _ => exact ih
      | stored _ _ _ _ _ _ => exact h.store _ _ ih
  cases hstart with
  | refused _ => exact hm
  | bare _ _ => exact h.same m.state _ ⟨rfl, rfl, rfl, rfl⟩ hm
  | @unreadable l s e _ _ _ hr =>
    have hrecover := h.recover hm (b := c.bounds) (l := l)
    rw [hr] at hrecover
    exact hrecover
  | @exhausted _ s _ _ _ _ => exact h.rebuild s
  | @unrecorded _ _ s _ _ _ _ _ _ _ =>
    exact h.same s.rebuildIndexes _ ⟨rfl, rfl, rfl, rfl⟩ (h.rebuild s)
  | suspending _ hr hs => exact hrestarted hr hs
  | launched _ hr hs _ =>
    have hlast := hrestarted hr hs
    exact hlast

/-- **A store invariant holds in every state of every run**. -/
theorem run (h : StoreInvariant I) (c : FabricConfig) (steps : List Step) :
    I (OffloadFabric.run c steps).state := by
  refine run_induction (P := fun _ m ↦ I m.state) (h.bare _ rfl rfl rfl) (fun steps st ih ↦ ?_) steps
  by_cases hstart : ∃ boot, st.op = .start boot
  · obtain ⟨boot, hop⟩ := hstart
    exact h.start (m := (OffloadFabric.run c steps).facing st.faults) (st.start_next c _ hop) ih
  · have hcourse := st.course c (OffloadFabric.run c steps) fun boot hop ↦ hstart ⟨boot, hop⟩
    generalize st.next c (OffloadFabric.run c steps) = m' at hcourse
    induction hcourse with
    | refl => exact ih
    | tail _ hc hm => exact h.change hc hm

end FabricState.StoreInvariant

/-- Whatever is stored or rebuilt, every claim of the indexes is held. -/
theorem storeInvariant_held : StoreInvariant Held where
  bare s hclass hscope _ := ClaimedIn.empty s.assignments hclass hscope
  same _ _ hsame hs := hs.of_eq hsame.assignments hsame.byClass hsame.byScope
  store _ r hs := ClaimedIn.insertAssignment hs r
  rebuild s := held_rebuildIndexes s

/-! ## Invariants of a running runtime -/

/-- A property of the states of a running runtime, which a recovery establishes whatever it
recovered. -/
structure RunningInvariant (c : FabricConfig) (P : FabricState → Prop) : Prop where
  empty : P {}
  bare : ∀ (s : FabricState) boot, P s → P { s with epochCounter := 1, epoch := ⟨1, boot⟩ }
  recovered : ∀ (s : FabricState) counter boot,
    P (s.restarting counter boot).applyRecoveryInvariants
  suspended : ∀ (s : FabricState) (r : AssignmentRecord) now, P s →
    s.assignments.find? r.id = some r → r.state.isLive = true →
    P (s.insertAssignment (r.enter c.bounds .suspended .restartAuthorityReset now))
  change : ∀ st m₀ m m', Change c st m₀ m m' → P m.state → P m'.state

namespace RunningInvariant

variable {c : FabricConfig} {P : FabricState → Prop} {m m' : Impl}

theorem start (h : RunningInvariant c P) {now : Micros} {boot : BootId}
    (hs : Start c now boot m m') (hm : m.running = true ∨ c.hasStore = false → P m.state) :
    m'.running = true ∨ c.hasStore = false → P m'.state := by
  intro hrun'
  have hrestarted : ∀ {m₁ m₂ : Impl}, Restarted c boot m m₁ →
      Relation.ReflTransGen (Suspends c now) m₁ m₂ → P m₂.state := by
    intro m₁ m₂ hr hs
    induction hs with
    | refl =>
      obtain ⟨l, s, counter, payload, l', -, -, -, -, -, rfl⟩ := hr.exists_recovery
      exact h.recovered s counter boot
    | tail _ hc ih =>
      cases hc with
      | settled _ => exact ih
      | stored hfind hlive _ hr _ _ =>
        rw [hr]
        exact h.suspended _ _ now ih hfind hlive
  have hidle : ∀ {s : FabricState} {l : Log}, m.running = false → c.hasStore = true →
      ({ m.opened l with state := s } : Impl).running = true ∨ c.hasStore = false → P s := by
    intro s l hstop hstore hrun
    rcases hrun with hrun | hbare
    · exact absurd (hstop.symm.trans hrun) (by decide)
    · exact absurd (hstore.symm.trans hbare) (by decide)
  cases hs with
  | refused _ => exact hm hrun'
  | bare hbare _ => exact h.bare _ boot (hm (.inr hbare))
  | unreadable hstore hstop _ _ => exact hidle hstop hstore hrun'
  | exhausted hstore hstop _ _ => exact hidle hstop hstore hrun'
  | unrecorded hstore hstop _ _ _ _ => exact hidle hstop hstore hrun'
  | suspending _ hr hs => exact hrestarted hr hs
  | launched _ hr hs _ =>
    have hlast := hrestarted hr hs
    exact hlast

/-- **A running invariant holds of every running state of every run**, and without a store of
every state. -/
theorem run (h : RunningInvariant c P) (steps : List Step) :
    (OffloadFabric.run c steps).running = true ∨ c.hasStore = false →
      P (OffloadFabric.run c steps).state := by
  refine run_induction (P := fun _ m ↦ m.running = true ∨ c.hasStore = false → P m.state)
    (fun _ ↦ h.empty) (fun steps st ih hrun' ↦ ?_) steps
  by_cases hstart : ∃ boot, st.op = .start boot
  · obtain ⟨boot, hop⟩ := hstart
    exact h.start (m := (OffloadFabric.run c steps).facing st.faults) (st.start_next c _ hop) ih
      hrun'
  have hstart : ∀ boot, st.op ≠ .start boot := fun boot hop ↦ hstart ⟨boot, hop⟩
  cases hrun : (OffloadFabric.run c steps).running with
  | false =>
    rcases st.next_idle c _ hstart hrun with ⟨b, heq⟩ | ⟨-, heq⟩
    · rw [heq] at hrun' ⊢
      exact ih hrun'
    · rw [heq]
      exact h.empty
  | true =>
    have hcourse := st.course c (OffloadFabric.run c steps) hstart
    generalize st.next c (OffloadFabric.run c steps) = m' at hcourse
    induction hcourse with
    | refl => exact ih (.inl hrun)
    | tail _ hc hm => exact h.change st _ _ _ hc hm

end RunningInvariant

end OffloadFabric
