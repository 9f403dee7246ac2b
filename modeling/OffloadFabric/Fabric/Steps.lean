import OffloadFabric.Fabric.Course

/-!
# Steps of a run

A step is a start, a step of a runtime that is not running, which changes no state, or a course
of changes of one that is. What holds of an empty runtime and after every step holds after
every run.
-/

namespace OffloadFabric

open Lib Lib.Fallible FabricM

@[simp] theorem Impl.facing_state (m : Impl) (faults : List Fault) :
    (m.facing faults).state = m.state := rfl

@[simp] theorem Impl.facing_issued (m : Impl) (faults : List Fault) :
    (m.facing faults).issued = m.issued := rfl

@[simp] theorem Impl.facing_running (m : Impl) (faults : List Fault) :
    (m.facing faults).running = m.running := rfl

@[simp] theorem Impl.facing_storeOpen (m : Impl) (faults : List Fault) :
    (m.facing faults).storeOpen = m.storeOpen := rfl

theorem Impl.facing_same (m : Impl) (faults : List Fault) :
    m.log.Same (m.facing faults).log := ⟨rfl, rfl⟩

/-- The lost runtime behind the same log. -/
def Impl.lost (m : Impl) : Impl := { log := m.log, issued := m.issued }

namespace Fabric

variable {c : FabricConfig} {m : Impl}

private theorem accepting_idle {α : Type} (hrun : m.running = false) (f : Unit → FabricM α) :
    ((checkAccepting >>= f).exec m).2 = m := by
  unfold checkAccepting
  simp only [exec_bind, exec_get, exec_check, hrun, Bool.false_eq_true, if_false]

private theorem running_idle {α : Type} (hrun : m.running = false) (e : Error)
    (f : Unit → FabricM α) :
    ((do let m ← get; check (m.running = true) e >>= f : FabricM α).exec m).2 = m := by
  simp only [exec_bind, exec_get, exec_check, hrun, Bool.false_eq_true, if_false]

private theorem discard_idle {α : Type} {x : FabricM α} {r : Option AssignmentRecord}
    (h : (x.exec m).2 = m) : ((do let _ ← x; return r : FabricM _).exec m).2 = m := by
  rw [exec_bind]
  generalize hx : x.exec m = out at h
  obtain ⟨a, m'⟩ := out
  cases a <;> exact h

theorem map_idle {x : FabricM AssignmentRecord} (h : (x.exec m).2 = m) :
    ((some <$> x : FabricM _).exec m).2 = m := by
  rw [map_eq_pure_bind, exec_bind]
  generalize hx : x.exec m = out at h
  obtain ⟨a, m'⟩ := out
  cases a <;> exact h

private theorem shutdown_idle (hrun : m.running = false) :
    ((shutdown c).exec m).2 = { m with shuttingDown := true } := by
  unfold shutdown
  simp only [exec_bind, exec_get, exec_modify, hrun, Bool.false_eq_true, and_false, if_false]
  rfl

end Fabric

open Fabric in
/-- A step of a runtime that is not running changes no state: a crash loses it. -/
theorem Step.next_idle (c : FabricConfig) (m : Impl) (st : Step)
    (hstart : ∀ boot, st.op ≠ .start boot) (hrun : m.running = false) :
    (∃ shuttingDown, st.next c m = { m.facing st.faults with shuttingDown }) ∨
      st.op = .crash ∧ st.next c m = (m.facing st.faults).lost := by
  have hidle : (m.facing st.faults).running = false := hrun
  by_cases hcrash : st.op = .crash
  · refine .inr ⟨hcrash, ?_⟩
    unfold Step.next Step.exec
    rw [hcrash]
    rfl
  by_cases hshutdown : st.op = .shutdown
  · refine .inl ⟨true, ?_⟩
    unfold Step.next Step.exec
    rw [hshutdown]
    unfold Op.program
    rw [exec_bind, ← shutdown_idle (c := c) hidle]
    generalize (shutdown c).exec (m.facing st.faults) = out
    obtain ⟨r, m'⟩ := out
    cases r <;> rfl
  · refine .inl ⟨m.shuttingDown, ?_⟩
    suffices h : ∀ op, st.op = op →
        ((op.program c st.now).exec (m.facing st.faults)).2 = m.facing st.faults from h st.op rfl
    intro op hop
    cases op with
    | start boot => exact absurd hop (hstart boot)
    | shutdown => exact absurd hop hshutdown
    | crash => exact absurd hop hcrash
    | acceptRecovery => exact discard_idle (running_idle hidle _ _)
    | compact => exact discard_idle (running_idle hidle _ _)
    | registerFunction f => exact discard_idle (accepting_idle hidle _)
    | ingestTopology t => exact discard_idle (accepting_idle hidle _)
    | ingestCapabilities report => exact discard_idle (accepting_idle hidle _)
    | ingestPolicy p => exact discard_idle (accepting_idle hidle _)
    | ingestObservations report => exact discard_idle (accepting_idle hidle _)
    | grantAuthority g => exact discard_idle (accepting_idle hidle _)
    | withdrawAuthority id reason => exact discard_idle (running_idle hidle _ _)
    | apply request options => exact map_idle (accepting_idle hidle _)
    | applyPlan planned options => exact map_idle (accepting_idle hidle _)
    | replace request => exact map_idle (accepting_idle hidle _)
    | revoke request => exact map_idle (accepting_idle hidle _)
    | reauthorize request => exact map_idle (accepting_idle hidle _)
    | reportEffect report => exact map_idle (accepting_idle hidle _)
    | revalidate cancel => exact discard_idle (running_idle hidle _ _)

/-- A crash loses the state of the runtime. -/
theorem Step.next_crash (c : FabricConfig) (m : Impl) (st : Step) (hop : st.op = .crash) :
    st.next c m = (m.facing st.faults).lost := by
  unfold Step.next Step.exec
  rw [hop]
  rfl

/-- Only a shutdown or a crash ends a runtime. -/
theorem Change.flags {c : FabricConfig} {st : Step} {m₀ m m' : Impl} (h : Change c st m₀ m m')
    (hcrash : st.op ≠ .crash) (hshutdown : st.op ≠ .shutdown) :
    m'.running = m.running ∧ m'.storeOpen = m.storeOpen := by
  cases h with
  | closed hop => exact absurd hop hshutdown
  | crashed hop => exact absurd hop hcrash
  | _ => exact ⟨rfl, rfl⟩

/-- What a running step that is no start and no crash keeps at every change, it keeps: but for
a shutdown, the runtime stays up throughout. -/
theorem Step.active {c : FabricConfig} {m : Impl} {st : Step} {P : Impl → Prop}
    (hstart : ∀ boot, st.op ≠ .start boot) (hcrash : st.op ≠ .crash)
    (hP : P (m.facing st.faults))
    (hchange : ∀ m₁ m₂, Change c st (m.facing st.faults) m₁ m₂ →
      (st.op ≠ .shutdown → m₁.running = m.running ∧ m₁.storeOpen = m.storeOpen) →
      P m₁ → P m₂) : P (st.next c m) := by
  have hcourse := st.course c m hstart
  suffices h : ∀ m', Relation.ReflTransGen (Change c st (m.facing st.faults))
      (m.facing st.faults) m' →
      (st.op ≠ .shutdown → m'.running = m.running ∧ m'.storeOpen = m.storeOpen) ∧ P m' from
    (h _ hcourse).2
  intro m' hm'
  induction hm' with
  | refl => exact ⟨fun _ ↦ ⟨rfl, rfl⟩, hP⟩
  | tail _ hstep ih =>
      obtain ⟨hflags, hP⟩ := ih
      refine ⟨fun hshutdown ↦ ?_, hchange _ _ hstep hflags hP⟩
      obtain ⟨hrun, hopen⟩ := hstep.flags hcrash hshutdown
      exact ⟨hrun.trans (hflags hshutdown).1, hopen.trans (hflags hshutdown).2⟩

/-- A change stores one assignment, or leaves the assignments. -/
theorem Change.assignments {c : FabricConfig} {st : Step} {m₀ m m' : Impl}
    (h : Change c st m₀ m m') (hcrash : st.op ≠ .crash) :
    m'.state.assignments = m.state.assignments ∨
      ∃ v type payload, st.op.Missed c m₀.state ∧
        Stores c st.now m₀.state m.state st.op v ∧ Payload c.bounds v type payload ∧
        Commits c m type payload m'.log ∧
        m'.state.assignments = m.state.assignments.insert v.record := by
  cases h with
  | delivered hm hd hp hl =>
      refine .inl ?_
      simp only
      rw [Op.delivery_next hd]
  | stored hmiss hv hp hr hl =>
      exact .inr ⟨_, _, _, hmiss, hv, hp, hl, FabricState.storing_assignments _ _ _ _ _⟩
  | refused hmiss hid hk hr hp hl =>
      exact .inl (FabricState.recordIdempotency_assignments _ _ _ _)
  | issued hop hi => exact .inl (by cases hi <;> rfl)
  | crashed hop => exact absurd hop hcrash
  | _ => exact .inl rfl

/-- Issued values stay issued. -/
theorem Step.issued_prefix (c : FabricConfig) (m : Impl) (st : Step) :
    m.issued <+: (st.next c m).issued := by
  by_cases hstart : ∃ boot, st.op = .start boot
  · obtain ⟨boot, hop⟩ := hstart
    have hsuspends : ∀ {m₁ m₂ : Impl},
        Relation.ReflTransGen (Suspends c (st.now 0)) m₁ m₂ → m₂.issued = m₁.issued := by
      intro m₁ m₂ h
      induction h with
      | refl => rfl
      | tail _ hs ih => cases hs <;> exact ih
    have hrestarted : ∀ {m₁ : Impl}, Restarted c boot (m.facing st.faults) m₁ →
        m₁.issued = m.issued := by
      rintro m₁ h
      obtain ⟨l, s, counter, payload, l', -, -, -, -, -, rfl⟩ := h.exists_recovery
      rfl
    have hnext := st.start_next c m hop
    generalize st.next c m = m' at hnext
    have hissued : m'.issued = m.issued := by
      cases hnext with
      | suspending _ h hs => exact (hsuspends hs).trans (hrestarted h)
      | launched _ h hs _ => exact (hsuspends hs).trans (hrestarted h)
      | _ => rfl
    rw [hissued]
  · have hcourse := st.course c m fun boot hop ↦ hstart ⟨boot, hop⟩
    generalize st.next c m = m' at hcourse
    induction hcourse with
    | refl => exact List.prefix_rfl
    | tail _ hs ih =>
        refine ih.trans ?_
        cases hs with
        | issued _ _ => exact List.prefix_append _ _
        | _ => exact List.prefix_rfl

/-- A start of a runtime that runs is refused. -/
theorem Start.of_running {c : FabricConfig} {now : Micros} {boot : BootId} {m m' : Impl}
    (h : Start c now boot m m') (hrun : m.running = true) :
    ∃ l shuttingDown, m.log.Same l ∧ m' = { m with log := l, shuttingDown } := by
  cases h with
  | refused hl => exact ⟨_, _, hl, rfl⟩
  | bare _ hstop => exact absurd (hrun.symm.trans hstop) (by decide)
  | unreadable _ hstop _ _ => exact absurd (hrun.symm.trans hstop) (by decide)
  | exhausted _ hstop _ _ => exact absurd (hrun.symm.trans hstop) (by decide)
  | unrecorded _ hstop _ _ _ _ => exact absurd (hrun.symm.trans hstop) (by decide)
  | suspending _ hr _ => exact absurd (hrun.symm.trans hr.stopped) (by decide)
  | launched _ hr _ _ => exact absurd (hrun.symm.trans hr.stopped) (by decide)

/-- A start that succeeds found the runtime stopped. -/
theorem Step.start_ok {c : FabricConfig} {m : Impl} {st : Step} {boot : BootId}
    {r : Option AssignmentRecord} (hop : st.op = .start boot) (h : (st.exec c m).1 = .ok r) :
    m.running = false := by
  by_contra hrun
  have hrun : (m.facing st.faults).running = true := by simpa using hrun
  unfold Step.exec at h
  rw [hop] at h
  simp only [Op.program, Fabric.start, exec_bind, exec_get, exec_check, hrun, Bool.true_eq_false,
    if_false] at h
  cases h

open Fabric in
/-- A start that succeeds leaves the runtime running. -/
theorem Step.start_running {c : FabricConfig} {m : Impl} {st : Step} {boot : BootId}
    {r : Option AssignmentRecord} (hop : st.op = .start boot) (h : (st.exec c m).1 = .ok r) :
    (st.next c m).running = true := by
  obtain ⟨m', h⟩ : ∃ m', st.exec c m = (.ok r, m') := ⟨_, Prod.ext h rfl⟩
  unfold Step.next
  rw [h]
  unfold Step.exec at h
  rw [hop] at h
  obtain ⟨_, m₁, hstart, h₁⟩ := exec_bind_ok h
  cases h₁
  unfold start at hstart
  obtain ⟨_, _, -, h₂⟩ := exec_bind_ok hstart
  obtain ⟨_, _, -, h₃⟩ := exec_bind_ok h₂
  obtain ⟨_, _, -, h₄⟩ := exec_bind_ok h₃
  obtain ⟨_, _, -, h₅⟩ := exec_bind_ok h₄
  split at h₅
  · obtain ⟨_, _, -, h₆⟩ := exec_bind_ok h₅
    obtain ⟨_, _, -, h₇⟩ := exec_bind_ok h₆
    obtain ⟨_, _, -, h₈⟩ := exec_bind_ok h₇
    unfold restart at h₈
    obtain ⟨_, _, -, h₉⟩ := exec_bind_ok h₈
    obtain ⟨_, _, -, h₁₀⟩ := exec_bind_ok h₉
    obtain ⟨_, _, -, h₁₁⟩ := exec_bind_ok h₁₀
    obtain ⟨_, _, -, h₁₂⟩ := exec_bind_ok h₁₁
    obtain ⟨_, _, -, h₁₃⟩ := exec_bind_ok h₁₂
    obtain ⟨_, _, -, h₁₄⟩ := exec_bind_ok h₁₃
    obtain ⟨_, _, -, h₁₅⟩ := exec_bind_ok h₁₄
    obtain ⟨_, _, -, h₁₆⟩ := exec_bind_ok h₁₅
    cases h₁₆
    rfl
  · cases h₅
    rfl

/-! ## Runs -/

@[simp] theorem run_nil (c : FabricConfig) : run c [] = {} := rfl

@[simp] theorem run_append (c : FabricConfig) (steps : List Step) (st : Step) :
    run c (steps ++ [st]) = st.next c (run c steps) := by
  unfold run runFrom
  rw [List.foldl_append]
  rfl

/-- What holds at first and is kept by every step holds after every run. -/
theorem run_induction {c : FabricConfig} {P : List Step → Impl → Prop} (hnil : P [] {})
    (hstep : ∀ steps st, P steps (run c steps) →
      P (steps ++ [st]) (st.next c (run c steps))) (steps : List Step) :
    P steps (run c steps) := by
  induction steps using List.reverseRecOn with
  | nil => exact hnil
  | append_singleton steps st ih =>
      rw [run_append]
      exact hstep steps st ih

/-- Every step of the run meets a condition on the runtime it finds. -/
def Along (c : FabricConfig) (P : Impl → Step → Prop) (steps : List Step) : Prop :=
  ∀ before st, before ++ [st] <+: steps → P (run c before) st

namespace Along

variable {c : FabricConfig} {P : Impl → Step → Prop} {steps : List Step} {st : Step}

theorem init (h : Along c P (steps ++ [st])) : Along c P steps :=
  fun before x hfront ↦ h before x (hfront.trans (List.prefix_append _ _))

theorem last (h : Along c P (steps ++ [st])) : P (run c steps) st := h steps st List.prefix_rfl

theorem nil (c : FabricConfig) (P : Impl → Step → Prop) : Along c P [] := by
  intro before st hfront
  simp at hfront

theorem snoc (h : Along c P steps) (hst : P (run c steps) st) : Along c P (steps ++ [st]) := by
  intro before x hfront
  rcases List.prefix_concat_iff.mp hfront with heq | hfront
  · obtain ⟨rfl, hx⟩ := List.append_inj' heq rfl
    cases hx
    exact hst
  · exact h before x hfront

/-- What holds at first and is kept by every step that meets the condition holds after every run
along it. -/
theorem invariant {I : Impl → Prop} (h : Along c P steps) (hnil : I {})
    (hstep : ∀ m st, P m st → I m → I (st.next c m)) : I (run c steps) :=
  run_induction (P := fun steps m ↦ Along c P steps → I m) (fun _ ↦ hnil)
    (fun _ st ih h ↦ hstep _ st h.last (ih h.init)) steps h

end Along

end OffloadFabric
