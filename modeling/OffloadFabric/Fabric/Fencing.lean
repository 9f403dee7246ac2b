import OffloadFabric.Fabric.Counters

/-!
# The order of fencing tokens

A token carries the epoch of the runtime that issued it. While a runtime runs, every token
issued so far is of an earlier epoch or counted in the present one; while none runs, every
recovery of the log has seen its epoch. So a token issued later is above all of them.
-/

namespace OffloadFabric

open Lib FabricState Wire

/-- The fencing tokens among issued values, in order. -/
def fences (issued : List Issued) : List FencingToken :=
  issued.filterMap fun
    | .fence token => some token
    | _ => none

@[simp] theorem fences_nil : fences [] = [] := rfl

@[simp] theorem mem_fences {issued : List Issued} {t : FencingToken} :
    t ∈ fences issued ↔ Issued.fence t ∈ issued := by
  unfold fences
  rw [List.mem_filterMap]
  constructor
  · rintro ⟨i, hi, heq⟩
    split at heq
    · cases heq
      exact hi
    · cases heq
  · exact fun h ↦ ⟨_, h, rfl⟩

theorem fences_append (issued issued' : List Issued) :
    fences (issued ++ issued') = fences issued ++ fences issued' := List.filterMap_append

/-- A token of an earlier epoch, or counted in the epoch of the state. -/
def FencingToken.Within (t : FencingToken) (s : FabricState) : Prop :=
  t.epoch < s.epoch.counter ∨ t.epoch = s.epoch.counter ∧ t.sequence ≤ s.nextFenceSequence

theorem FencingToken.Within.epoch_le {t : FencingToken} {s : FabricState} (h : t.Within s) :
    t.epoch ≤ s.epoch.counter := by
  rcases h with h | h
  · exact h.le
  · exact h.1.le

theorem FencingToken.Within.of_same {t : FencingToken} {s s' : FabricState} (h : t.Within s)
    (hs : SameCounters s s') : t.Within s' := by
  unfold FencingToken.Within
  rw [hs.epoch, hs.nextFenceSequence]
  exact h

/-- The token a state issues is above every token within it. -/
theorem FencingToken.Within.lt_issued {t : FencingToken} {s : FabricState} {n : UInt64}
    (h : t.Within s) (hn : checkedAdd s.nextFenceSequence 1 = some n) :
    t < ⟨s.epoch.counter, n⟩ := by
  have hsum := (checkedAdd_eq_some.mp hn).2
  have hone : (1 : UInt64).toNat = 1 := rfl
  rcases h with h | ⟨he, hle⟩
  · exact .inl h
  · refine .inr ⟨he, ?_⟩
    rw [UInt64.lt_iff_toNat_lt, hsum]
    have := UInt64.le_iff_toNat_le.mp hle
    omega

/-- A token stays within a state that issues another value. -/
theorem FencingToken.Within.issue {t : FencingToken} {s s' : FabricState} {i : Issued}
    (h : t.Within s) (hi : s.Issue i s') : t.Within s' := by
  cases hi with
  | fence n hn =>
      rcases h.lt_issued hn with hlt | ⟨he, hlt⟩
      · exact .inl hlt
      · exact .inr ⟨he, hlt.le⟩
  | _ => exact h

/-- A runtime whose tokens are in order and known to every recovery of its log. -/
structure Fenced (c : FabricConfig) (m : Impl) : Prop where
  increasing : (fences m.issued).Pairwise (· < ·)
  floor : ∀ t ∈ fences m.issued, m.log.EpochFloor c.bounds t.epoch

/-- A runtime that may issue tokens: all others are within its state, and every recovery of its
log has seen its epoch. -/
structure Fencing (c : FabricConfig) (m : Impl) : Prop where
  increasing : (fences m.issued).Pairwise (· < ·)
  within : ∀ t ∈ fences m.issued, t.Within m.state
  epoch : m.state.epoch.counter ≤ m.state.epochCounter
  floor : m.log.EpochFloor c.bounds m.state.epoch.counter

variable {c : FabricConfig} {m m' : Impl}

namespace Fencing

theorem fenced (h : Fencing c m) : Fenced c m where
  increasing := h.increasing
  floor t ht := h.floor.mono (h.within t ht).epoch_le

/-- A change of anything but the counters and the log. -/
theorem of_same (h : Fencing c m) (hs : SameCounters m.state m'.state)
    (hi : m'.issued = m.issued) (hl : m'.log.EpochFloor c.bounds m.state.epoch.counter) :
    Fencing c m' where
  increasing := hi ▸ h.increasing
  within t ht := (h.within t (hi ▸ ht)).of_same hs
  epoch := by
    rw [hs.epoch, hs.epochCounter]
    exact h.epoch
  floor := by
    rw [hs.epoch]
    exact hl

theorem settled {l : Log} (h : Fencing c m) (hl : Settled c.bounds m.state m.log l) :
    l.EpochFloor c.bounds m.state.epoch.counter :=
  h.floor.settled h.epoch hl

theorem recorded {l : Log} {type : RecordType} {payload : Bytes} (h : Fencing c m)
    (hl : Recorded c.bounds m.state type payload m.log l) :
    l.EpochFloor c.bounds m.state.epoch.counter :=
  h.floor.recorded h.epoch hl

theorem issued {i : Issued} {s : FabricState} (h : Fencing c m) (hi : m.state.Issue i s) :
    Fencing c { m with state := s, issued := m.issued ++ [i] } := by
  have hepoch := hi.epoch
  have hold : ∀ t ∈ fences m.issued, t.Within s := fun t ht ↦ (h.within t ht).issue hi
  refine ⟨?_, fun t ht ↦ ?_, ?_, ?_⟩
  · change (fences (m.issued ++ [i])).Pairwise _
    rw [fences_append]
    refine List.pairwise_append.mpr ⟨h.increasing, ?_, fun t ht u hu ↦ ?_⟩
    · cases i <;> simp [fences]
    · rw [mem_fences, List.mem_singleton] at hu
      subst hu
      cases hi with
      | fence n hn => exact (h.within t ht).lt_issued hn
  · change t ∈ fences (m.issued ++ [i]) at ht
    rw [fences_append, List.mem_append] at ht
    rcases ht with ht | ht
    · exact hold t ht
    · rw [mem_fences, List.mem_singleton] at ht
      subst ht
      cases hi with
      | fence n hn => exact .inr ⟨rfl, le_rfl⟩
  · change s.epoch.counter ≤ s.epochCounter
    rw [hepoch.1, hepoch.2]
    exact h.epoch
  · change m.log.EpochFloor c.bounds s.epoch.counter
    rw [hepoch.1]
    exact h.floor

/-- Every change of a step keeps a runtime that may issue tokens. -/
theorem change {st : Step} {m₀ : Impl} (h : Fencing c m) (hc : Change c st m₀ m m')
    (hcrash : st.op ≠ .crash) : Fencing c m' := by
  rcases hc.counters hcrash with ⟨hs, hi⟩ | ⟨i, hi, hl, heq⟩
  · refine h.of_same hs hi ?_
    rcases hc.log with hl | ⟨type, payload, hl⟩
    · exact h.settled hl
    · exact h.recorded hl
  · have hissued := h.issued hi
    exact ⟨heq ▸ hissued.increasing, heq ▸ hissued.within, hissued.epoch, hl ▸ hissued.floor⟩

/-- So does every change of the suspension loop of a start. -/
theorem suspends {now : Micros} (h : Fencing c m) (hc : Suspends c now m m') : Fencing c m' := by
  cases hc with
  | settled hl => exact h.of_same (.refl _) rfl (h.settled hl)
  | stored hfind hlive hne hr hp hl =>
      refine h.of_same (sameCounters_insertAssignment _ _) rfl ?_
      unfold Commits at hl
      split at hl
      · exact h.recorded hl
      · exact hl ▸ h.floor

end Fencing

/-- A restarted runtime may issue tokens: its epoch is above all of them and recorded. -/
theorem Fenced.restarted {boot : BootId} (h : Fenced c m) (hr : Restarted c boot m m') :
    Fencing c m' := by
  obtain ⟨l, s, counter, payload, l', hl, hrec, hn, hp, hcommit, rfl⟩ := hr.exists_recovery
  obtain ⟨f, hf, rfl⟩ := Log.Recovers.of_exec hrec
  have hlt := epochCounter_lt_of_nextEpoch hn
  rw [(rebuildIndexes_epoch _).2] at hlt
  have hbelow : ∀ t ∈ fences m.issued, t.epoch < counter := fun t ht ↦
    (h.floor t ht f (hf.same hl) m.state).trans_lt hlt
  exact {
    increasing := h.increasing
    within := fun t ht ↦ .inl (hbelow t ht)
    epoch := le_rfl
    floor := Log.EpochFloor.epoch hp hcommit }

/-- What a runtime keeps over every step of a run: its tokens in order, and while it runs all
of them within its state. -/
structure FencingOrder (c : FabricConfig) (m : Impl) : Prop where
  fenced : Fenced c m
  fencing : m.running = true → Fencing c m

namespace FencingOrder

theorem of_fencing (h : Fencing c m) : FencingOrder c m := ⟨h.fenced, fun _ ↦ h⟩

theorem of_idle (h : Fenced c m) (hrun : m.running = false) : FencingOrder c m :=
  ⟨h, fun hr ↦ absurd (hrun ▸ hr) (by decide)⟩

/-- The order of the tokens does not depend on the faults ahead. -/
theorem facing (h : FencingOrder c m) (faults : List Fault) :
    FencingOrder c (m.facing faults) where
  fenced := ⟨h.fenced.increasing, fun t ht ↦ (h.fenced.floor t ht).same (m.facing_same faults)⟩
  fencing hrun :=
    have hf := h.fencing hrun
    ⟨hf.increasing, hf.within, hf.epoch, hf.floor.same (m.facing_same faults)⟩

/-- A start keeps the order of the tokens, wherever it stops. -/
theorem start {now : Micros} {boot : BootId} (hstore : c.hasStore = true)
    (h : FencingOrder c m) (hs : Start c now boot m m') : FencingOrder c m' := by
  have hsuspends : ∀ {m₁ m₂ : Impl}, Fencing c m₁ →
      Relation.ReflTransGen (Suspends c now) m₁ m₂ → Fencing c m₂ := by
    intro m₁ m₂ h₁ hr
    induction hr with
    | refl => exact h₁
    | tail _ hc ih => exact ih.suspends hc
  have hsame : ∀ {l : Log}, m.log.Same l →
      ∀ t ∈ fences m.issued, l.EpochFloor c.bounds t.epoch := fun hl t ht ↦
    (h.fenced.floor t ht).same hl
  cases hs with
  | refused hl =>
      exact ⟨⟨h.fenced.increasing, hsame hl⟩, fun hrun ↦
        (h.fencing hrun).of_same (.refl _) rfl ((h.fencing hrun).floor.same hl)⟩
  | bare hbare hrun =>
      rw [hstore] at hbare
      cases hbare
  | unreadable _ hrun hl hr => exact .of_idle ⟨h.fenced.increasing, hsame hl⟩ hrun
  | exhausted _ hrun hl hr => exact .of_idle ⟨h.fenced.increasing, hsame hl⟩ hrun
  | @unrecorded l l' s counter _ hrun hl hr hn hsettled =>
      refine .of_idle ⟨h.fenced.increasing, fun t ht ↦ ?_⟩ hrun
      obtain ⟨f, hf, rfl⟩ := Log.Recovers.of_exec hr
      have hlt := epochCounter_lt_of_nextEpoch hn
      rw [(rebuildIndexes_epoch _).2] at hlt
      exact (hsame hl t ht).settled
        ((h.fenced.floor t ht f (hf.same hl) m.state).trans hlt.le) hsettled
  | suspending _ hr hs => exact .of_fencing (hsuspends (h.fenced.restarted hr) hs)
  | launched _ hr hs hall =>
      have hf := hsuspends (h.fenced.restarted hr) hs
      exact .of_fencing (hf.of_same (.refl _) rfl hf.floor)

/-- Every step keeps the order of the tokens. -/
theorem next (hstore : c.hasStore = true) (h : FencingOrder c m) (st : Step) :
    FencingOrder c (st.next c m) := by
  have hfacing := h.facing st.faults
  by_cases hstart : ∃ boot, st.op = .start boot
  · obtain ⟨boot, hop⟩ := hstart
    exact hfacing.start hstore (st.start_next c m hop)
  have hstart : ∀ boot, st.op ≠ .start boot := fun boot hop ↦ hstart ⟨boot, hop⟩
  by_cases hcrash : st.op = .crash
  · rw [st.next_crash c m hcrash]
    exact .of_idle ⟨hfacing.fenced.increasing, hfacing.fenced.floor⟩ rfl
  cases hrun : m.running with
  | false =>
      rcases st.next_idle c m hstart hrun with ⟨b, heq⟩ | ⟨hop, -⟩
      · rw [heq]
        exact .of_idle ⟨hfacing.fenced.increasing, hfacing.fenced.floor⟩ hrun
      · exact absurd hop hcrash
  | true =>
      exact .of_fencing (st.active hstart hcrash (hfacing.fencing hrun)
        fun m₁ m₂ hc _ hf ↦ hf.change hc hcrash)

/-- The tokens of every run are in order. -/
theorem run (hstore : c.hasStore = true) (steps : List Step) : FencingOrder c (run c steps) :=
  run_induction (P := fun _ m ↦ FencingOrder c m)
    (.of_idle ⟨.nil, fun t ht ↦ by simp at ht⟩ rfl) (fun _ st h ↦ h.next hstore st) steps

end FencingOrder

end OffloadFabric
