import OffloadFabric.Fabric.Fencing

/-!
# Fencing across restarts

Tokens are issued in increasing order over every run (`src/fabric.cpp:130-140,2699-2761`), and
an effect report moves an assignment only with its current token, issued since the last start
(`src/fabric.cpp:4030-4070`).
-/

namespace OffloadFabric

open Lib FabricState

variable {c : FabricConfig} {m : Impl}

/-- A token that a running runtime holds to be of an earlier epoch. -/
def Impl.Outdates (m : Impl) (t : FencingToken) : Prop :=
  m.running = true → t.epoch < m.state.epoch.counter

/-- The runtime after a start from a stopped one outdates every token issued before. -/
theorem FencingOrder.outdates_of_start {m' : Impl} {now : Micros} {boot : BootId}
    (h : FencingOrder c m) (hstopped : m.running = false) (hs : Start c now boot m m')
    (hstore : c.hasStore = true) {t : FencingToken} (ht : t ∈ fences m.issued) :
    m'.Outdates t := by
  have hkeeps : ∀ {m₁ m₂ : Impl}, Relation.ReflTransGen (Suspends c now) m₁ m₂ →
      m₂.state.epoch = m₁.state.epoch := by
    intro m₁ m₂ hr
    induction hr with
    | refl => rfl
    | tail _ hc ih =>
        cases hc with
        | settled _ => exact ih
        | stored _ _ _ _ _ _ => exact (sameCounters_insertAssignment _ _).epoch.trans ih
  have hrestarted : ∀ {m₁ : Impl}, Restarted c boot m m₁ →
      t.epoch < m₁.state.epoch.counter := by
    rintro m₁ hr
    obtain ⟨l, s, counter, payload, l', hl, hrec, hn, hp, hcommit, rfl⟩ := hr.exists_recovery
    obtain ⟨f, hf, rfl⟩ := Log.Recovers.of_exec hrec
    have hlt := epochCounter_lt_of_nextEpoch hn
    rw [(rebuildIndexes_epoch _).2] at hlt
    exact (h.fenced.floor t ht f (hf.same hl) m.state).trans_lt hlt
  intro hrun
  cases hs with
  | refused hl => exact absurd (hstopped ▸ hrun) (by decide)
  | bare hbare _ =>
      rw [hstore] at hbare
      cases hbare
  | unreadable _ hstop _ _ => exact absurd (hstop ▸ hrun) (by decide)
  | exhausted _ hstop _ _ => exact absurd (hstop ▸ hrun) (by decide)
  | unrecorded _ hstop _ _ _ _ => exact absurd (hstop ▸ hrun) (by decide)
  | suspending _ hr hs =>
      rw [hkeeps hs]
      exact hrestarted hr
  | launched _ hr hs hall =>
      rw [hkeeps hs]
      exact hrestarted hr

/-- An outdated token stays so. -/
theorem FencingOrder.outdates_next (h : FencingOrder c m) (hstore : c.hasStore = true)
    (st : Step) {t : FencingToken} (ht : t ∈ fences m.issued) (hold : m.Outdates t) :
    (st.next c m).Outdates t := by
  have hfacing := h.facing st.faults
  by_cases hstart : ∃ boot, st.op = .start boot
  · obtain ⟨boot, hop⟩ := hstart
    have hs := st.start_next c m hop
    cases hstopped : m.running with
    | false => exact hfacing.outdates_of_start hstopped hs hstore ht
    | true =>
        obtain ⟨l, b, -, heq⟩ := hs.of_running hstopped
        rw [heq]
        exact hold
  have hstart : ∀ boot, st.op ≠ .start boot := fun boot hop ↦ hstart ⟨boot, hop⟩
  by_cases hcrash : st.op = .crash
  · rw [st.next_crash c m hcrash]
    intro hrun
    cases hrun
  cases hrun : m.running with
  | false =>
      rcases st.next_idle c m hstart hrun with ⟨b, heq⟩ | ⟨hop, -⟩
      · rw [heq]
        exact hold
      · exact absurd hop hcrash
  | true =>
      have hepoch : (st.next c m).state.epoch = m.state.epoch :=
        st.active (P := fun m' ↦ m'.state.epoch = m.state.epoch) hstart hcrash rfl
          fun m₁ m₂ hc _ heq ↦ by
            rcases hc.counters hcrash with ⟨hs, -⟩ | ⟨i, hi, -, -⟩
            · exact hs.epoch.trans heq
            · exact hi.epoch.1.trans heq
      intro _
      rw [hepoch]
      exact hold hrun

/-- A token was issued before a start of the run that succeeded. -/
def IssuedBeforeStart (c : FabricConfig) (steps : List Step) (t : FencingToken) : Prop :=
  ∃ before st after boot r, steps = before ++ st :: after ∧ st.op = .start boot ∧
    (st.exec c (run c before)).1 = .ok r ∧ Issued.fence t ∈ (run c before).issued

/-- A token issued before a start is outdated ever after. -/
theorem outdates_of_issuedBeforeStart (hstore : c.hasStore = true) {steps : List Step}
    {t : FencingToken} (h : IssuedBeforeStart c steps t) : (run c steps).Outdates t := by
  obtain ⟨before, st, after, boot, r, rfl, hop, hok, ht⟩ := h
  have hbefore := (FencingOrder.run hstore before).facing st.faults
  have ht' : t ∈ fences (run c before).issued := mem_fences.mpr ht
  have hfirst : t ∈ fences (run c (before ++ [st])).issued ∧
      (run c (before ++ [st])).Outdates t := by
    rw [run_append]
    refine ⟨mem_fences.mpr ((st.issued_prefix c _).subset ht), ?_⟩
    exact hbefore.outdates_of_start (Step.start_ok hop hok) (st.start_next c _ hop) hstore ht'
  rw [List.append_cons]
  generalize before ++ [st] = earlier at hfirst
  clear hok hop hbefore ht ht'
  induction after using List.reverseRecOn with
  | nil =>
      rw [List.append_nil]
      exact hfirst.2
  | append_singleton after st ih =>
      rw [← List.append_assoc, run_append]
      refine (FencingOrder.run hstore _).outdates_next hstore st ?_ ih
      have hmono : ∀ later, (run c earlier).issued <+: (run c (earlier ++ later)).issued := by
        intro later
        induction later using List.reverseRecOn with
        | nil => rw [List.append_nil]
        | append_singleton later st ih =>
            rw [← List.append_assoc, run_append]
            exact ih.trans (st.issued_prefix c _)
      exact mem_fences.mpr ((hmono after).subset (mem_fences.mp hfirst.1))

/-- A report that passes no fencing check leaves the assignments. -/
theorem Step.report_assignments {st : Step} {report : EffectReport}
    (hop : st.op = .reportEffect report)
    (hrefused : m.running = true → ∀ r, m.state.assignments.find? report.assignment = some r →
      fencingChecks m.state report r ≠ .ok ()) :
    (st.next c m).state.assignments = m.state.assignments := by
  have hstart : ∀ boot, st.op ≠ .start boot := by simp [hop]
  have hcrash : st.op ≠ .crash := by simp [hop]
  cases hrun : m.running with
  | false =>
      rcases st.next_idle c m hstart hrun with ⟨b, heq⟩ | ⟨hop', -⟩
      · rw [heq]
        rfl
      · exact absurd hop' hcrash
  | true =>
      refine st.active (P := fun m' ↦ m'.state.assignments = m.state.assignments) hstart hcrash
        rfl fun m₁ m₂ hc _ heq ↦ ?_
      rcases hc.assignments hcrash with hsame | ⟨v, type, payload, -, hv, -, -, -⟩
      · exact hsame.trans heq
      · rw [hop] at hv
        cases hv with
        | revalidated hrev _ _ _ _ => cases hrev
        | reported hs hfind hfence _ =>
            rw [hs] at hfind hfence
            exact absurd hfence (hrefused hrun _ hfind)
        | superseded ha _ _ _ => cases ha.asked
        | created ha _ _ => cases ha.asked

/-- **Fencing across restarts.** With a store, over every run of operations, crashes and
restarts, the tokens issued so far are strictly increasing; and a report whose token was issued
before the last successful start, or is not the current token of the assignment it names,
leaves every assignment as it is. -/
theorem fencing_across_restarts (c : FabricConfig) (hstore : c.hasStore = true)
    (steps : List Step) :
    (fences (run c steps).issued).Pairwise (· < ·) ∧
      ∀ (st : Step) (report : EffectReport), st.op = .reportEffect report →
        (IssuedBeforeStart c steps report.fence ∨
          ∀ r, (run c steps).state.assignments.find? report.assignment = some r →
            r.fence ≠ report.fence) →
        (run c (steps ++ [st])).state.assignments = (run c steps).state.assignments := by
  refine ⟨(FencingOrder.run hstore steps).fenced.increasing, fun st report hop hstale ↦ ?_⟩
  rw [run_append]
  refine Step.report_assignments hop fun hrun r hfind hcheck ↦ ?_
  obtain ⟨_, hfence, hcheck⟩ := bind_eq_ok.mp hcheck
  obtain ⟨_, hepoch, -⟩ := bind_eq_ok.mp hcheck
  rcases hstale with hbefore | hother
  · have hlt := outdates_of_issuedBeforeStart hstore hbefore hrun
    rw [require_eq_ok.mp hepoch] at hlt
    exact lt_irrefl _ hlt
  · exact hother r hfind (require_eq_ok.mp hfence).2.symm

/-- The tokens of the small deployment, where a report with no token moves nothing. -/
theorem fencing_across_restarts_placed :
    (fences (run {} Sample.placed).issued).Pairwise (· < ·) ∧
      ∀ (st : Step) (report : EffectReport), st.op = .reportEffect report →
        (IssuedBeforeStart {} Sample.placed report.fence ∨
          ∀ r, (run {} Sample.placed).state.assignments.find? report.assignment = some r →
            r.fence ≠ report.fence) →
        (run {} (Sample.placed ++ [st])).state.assignments =
          (run {} Sample.placed).state.assignments :=
  fencing_across_restarts {} rfl Sample.placed

end OffloadFabric
