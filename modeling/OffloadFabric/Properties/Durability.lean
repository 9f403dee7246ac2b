import OffloadFabric.Fabric.Mirror

/-!
# Durability

What a store-backed runtime holds outlasts its end. After every run, whatever faults the durable
calls met, a loss of the process or a shutdown and the next start that comes up
(`src/fabric.cpp:2592-2798`) leave the functions, the topology, the policy, the capabilities, the
grants, the marks of the sources and the assignments as they were, but that what was live is
suspended.
-/

namespace OffloadFabric

open Lib Lib.Fallible FabricState

/-- What a restart leaves of an assignment: one that was live is suspended,
`src/fabric.cpp:2736-2760`. -/
def AssignmentRecord.restarted (r : AssignmentRecord) (b : Bounds) (now : Micros) :
    AssignmentRecord :=
  if r.state.isLive = true ∧ r.state ≠ .suspended then
    r.enter b .suspended .restartAuthorityReset now
  else r

/-- What a restart leaves of a durable value. -/
def DurableKey.restarted (b : Bounds) (now : Micros) : (k : DurableKey) → k.Value → k.Value
  | assignment _ => Option.map fun r ↦ r.restarted b now
  | function _ | topology | policy | capability _ | grant _ | mark _ => id

/-! ## Suspensions -/

variable {c : FabricConfig} {now : Micros} {m m' : Impl}

/-- A suspension stores what a restart leaves of one assignment, or nothing. -/
theorem Suspends.assignments (h : Suspends c now m m') (id : AssignmentId) :
    m'.state.assignments.find? id = m.state.assignments.find? id ∨
      ∃ r, m.state.assignments.find? id = some r ∧ r.state.isLive = true ∧ r.state ≠ .suspended ∧
        m'.state.assignments.find? id =
          some (r.enter c.bounds .suspended .restartAuthorityReset now) := by
  cases h with
  | settled _ => exact .inl rfl
  | @stored l r r' type payload hfind hlive hne hr hp hl =>
    have hid : key r' = r.id := by
      rw [hr]
      rfl
    simp only [insertAssignment_assignments, Table.find?_insert, hid]
    by_cases heq : r.id = id
    · subst heq
      refine .inr ⟨r, hfind, hlive, hne, ?_⟩
      rw [if_pos rfl, hr]
    · exact .inl (if_neg heq)

/-- The suspension loop leaves whatever is durable beside the assignments. -/
theorem Suspends.evidence (h : Relation.ReflTransGen (Suspends c now) m m') {k : DurableKey}
    (hk : ∀ id, k ≠ .assignment id) : m'.state.durable k = m.state.durable k := by
  induction h with
  | refl => rfl
  | tail _ hc ih =>
    cases hc with
    | settled _ => exact ih
    | stored _ _ _ _ _ _ =>
      rw [← ih, durable_insertAssignment]
      cases k with
      | assignment id => exact absurd rfl (hk id)
      | _ => rfl

/-- Along the suspension loop an assignment is as it was, or what a restart leaves of it. -/
theorem Suspends.between (h : Relation.ReflTransGen (Suspends c now) m m') (id : AssignmentId) :
    m'.state.assignments.find? id = m.state.assignments.find? id ∨
      m'.state.assignments.find? id =
        (m.state.assignments.find? id).map fun r ↦ r.restarted c.bounds now := by
  induction h with
  | refl => exact .inl rfl
  | tail _ hc ih =>
    rcases hc.assignments id with heq | ⟨r, hr, hlive, hne, heq⟩
    · rw [heq]
      exact ih
    · refine .inr ?_
      rw [hr] at ih
      rw [heq]
      rcases ih with hsame | hrestarted
      · rw [← hsame, Option.map_some]
        unfold AssignmentRecord.restarted
        rw [if_pos ⟨hlive, hne⟩]
      · obtain ⟨r₀, hr₀, hrestarted⟩ := Option.map_eq_some_iff.mp hrestarted.symm
        rw [hr₀, Option.map_some]
        unfold AssignmentRecord.restarted at hrestarted ⊢
        split at hrestarted
        · -- a suspended assignment is not suspended again
          rw [← hrestarted] at hne
          exact absurd rfl hne
        · next hnot => exact absurd ⟨hrestarted ▸ hlive, hrestarted ▸ hne⟩ hnot

/-- The suspension loop leaves of everything durable what a restart leaves. -/
theorem Suspends.restarts (h : Relation.ReflTransGen (Suspends c now) m m')
    (hall : ∀ r ∈ m'.state.assignments.values, r.state.isLive = true → r.state = .suspended)
    (k : DurableKey) :
    m'.state.durable k = k.restarted c.bounds now (m.state.durable k) := by
  cases k with
  | assignment id =>
    change m'.state.assignments.find? id = (m.state.assignments.find? id).map _
    rcases Suspends.between h id with hsame | hrestarted
    · rw [← hsame]
      cases hr : m'.state.assignments.find? id with
      | none => rfl
      | some r =>
        have hsuspended := hall r (Table.mem_values_of_find? hr)
        rw [Option.map_some]
        unfold AssignmentRecord.restarted
        rw [if_neg fun hlive ↦ hlive.2 (hsuspended hlive.1)]
    · exact hrestarted
  | _ => exact Suspends.evidence h fun id ↦ by rintro ⟨⟩

/-! ## Restarts -/

/-- A shutdown leaves the state. -/
theorem shutdown_state (c : FabricConfig) (m : Impl) :
    ((Fabric.shutdown c).exec m).2.state = m.state := by
  unfold Fabric.shutdown
  simp only [exec_bind, exec_get, exec_modify]
  split
  · split
    · simp only [exec_bind, exec_modify, FabricM.exec_onLog]
    · rfl
  · rfl

theorem Step.shutdown_next_state (c : FabricConfig) (m : Impl) (st : Step)
    (hop : st.op = .shutdown) : (st.next c m).state = m.state := by
  have hstate := shutdown_state c (m.facing st.faults)
  unfold Step.next Step.exec
  rw [hop]
  unfold Op.program
  simp only [exec_bind]
  cases hexec : (Fabric.shutdown c).exec (m.facing st.faults) with
  | mk r m' =>
    rw [hexec] at hstate
    cases r with
    | ok u => exact hstate
    | error e => exact hstate

/-- A start that comes up leaves what is durable as a restart leaves it. -/
theorem Start.restarts {boot : BootId} (hstart : Start c now boot m m')
    (hstore : c.hasStore = true) (hstop : m.running = false) (hup : m'.running = true)
    {s : FabricState}
    (hm : ∀ f, m.log.Recovers c.bounds f → ∀ k, (f m.state).durable k = s.durable k)
    (k : DurableKey) : m'.state.durable k = k.restarted c.bounds now (s.durable k) := by
  have hrestarted : ∀ {m₁}, Restarted c boot m m₁ →
      m₁.running = false ∧ m₁.state.durable k = s.durable k := by
    intro m₁ hr
    obtain ⟨l, t, counter, payload, l', hl, hrecover, -, -, -, rfl⟩ := hr.exists_recovery
    obtain ⟨f, hf, rfl⟩ := Log.Recovers.of_exec hrecover
    refine ⟨hstop, ?_⟩
    rw [← hm f (hf.same hl) k]
    exact (durable_applyRecoveryInvariants _ k).trans (durable_restarting _ _ _ k)
  have hidle : ∀ {m₁ m₂}, Relation.ReflTransGen (Suspends c now) m₁ m₂ →
      m₁.running = false → m₂.running = false := by
    intro m₁ m₂ hs h₁
    induction hs with
    | refl => exact h₁
    | tail _ hc ih =>
      cases hc with
      | settled _ => exact ih
      | stored _ _ _ _ _ _ => exact ih
  have hnot : m'.running ≠ false := by
    rw [hup]
    decide
  cases hstart with
  | launched _ hr hs hall =>
    rw [← (hrestarted hr).2]
    exact Suspends.restarts hs hall k
  | suspending _ hr hs => exact absurd (hidle hs (hrestarted hr).1) hnot
  | bare hbare _ => exact absurd (hstore.symm.trans hbare) (by decide)
  | _ => exact absurd hstop hnot

end OffloadFabric
