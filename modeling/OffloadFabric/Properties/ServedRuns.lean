import OffloadFabric.Service.Server
import OffloadFabric.Fabric.Steps

/-!
# Served runtimes

The server hands a request to the runtime at most once and in the order of arrival
(`src/service.cpp:588-1238`), so the runtime behind a server is the runtime after a run: whatever
holds of every run holds of every served runtime.
-/

namespace OffloadFabric

open Lib Lib.Fallible Wire

namespace Service

variable {c : FabricConfig} {reports : Reports} {a : Arrival} {s : Server}

/-! ## Requested operations -/

/-- What a reader makes of the whole payload of a request. -/
def Arrival.decoded {α : Type} (c : FabricConfig) (a : Arrival) (reader : Reader α) : Option α :=
  (decodeExact c.bounds reader a.request.payload).toOption

/-- The operation that a request of an opcode asks the runtime for, `src/service.cpp:697-1223`; a
query asks for none. -/
def Arrival.asks (c : FabricConfig) (a : Arrival) : Opcode → Option Op
  | .registerFunction => (a.decoded c (decFunction c.bounds)).map .registerFunction
  | .ingestTopology => (a.decoded c (decTopology c.bounds)).map .ingestTopology
  | .ingestCapabilities => (a.decoded c (decCapabilityReport c.bounds)).map .ingestCapabilities
  | .ingestPolicy => (a.decoded c (decPolicy c.bounds)).map .ingestPolicy
  | .ingestObservations => (a.decoded c (decObservationReport c.bounds)).map .ingestObservations
  | .grantAuthority => (a.decoded c decAuthority).map .grantAuthority
  | .withdrawAuthority =>
      (a.decoded c decWithdrawal).map fun withdrawal ↦ .withdrawAuthority withdrawal.1 withdrawal.2
  | .reportEffect => (a.decoded c decEffectReport).map .reportEffect
  | .apply =>
      (a.decoded c (decApplication c.bounds a.cancel)).map fun application ↦
        .apply application.1 application.2
  | .revoke => (a.decoded c (decRevocation a.cancel)).map .revoke
  | .replace => (a.decoded c (decReplacement c.bounds a.cancel)).map .replace
  | .reauthorize => (a.decoded c (decReauthorization a.cancel)).map .reauthorize
  | .revalidate => (a.decoded c (pure ())).map fun _ ↦ .revalidate a.cancel
  | .compact => (a.decoded c (pure ())).map fun _ ↦ .compact
  | _ => none

/-- The operation that a request asks the runtime for. -/
def Arrival.op (c : FabricConfig) (a : Arrival) : Option Op :=
  (Opcode.ofCode? a.request.opcode).bind (a.asks c)

/-- The step of the runtime that a request asks for. -/
def Arrival.step (c : FabricConfig) (a : Arrival) : Option Step :=
  (a.op c).map fun op ↦ { op, now := a.now, faults := a.faults }

/-! ## One request -/

/-- Two runtimes are the same but for the faults that are still ahead, which the next step
forgets. -/
def SameRuntime (m m' : Impl) : Prop := m'.facing [] = m.facing []

theorem SameRuntime.refl (m : Impl) : SameRuntime m m := rfl

theorem SameRuntime.trans {m₁ m₂ m₃ : Impl} (h : SameRuntime m₁ m₂) (h' : SameRuntime m₂ m₃) :
    SameRuntime m₁ m₃ := Eq.trans h' h

theorem SameRuntime.facing (m : Impl) (faults : List Fault) : SameRuntime m (m.facing faults) := rfl

/-- A step takes runtimes that are the same to the same runtime. -/
theorem SameRuntime.next {m m' : Impl} (h : SameRuntime m m') (st : Step) :
    st.next c m' = st.next c m := by
  have hfacing : m'.facing st.faults = m.facing st.faults := congrArg (·.facing st.faults) h
  unfold Step.next Step.exec
  rw [hfacing]

/-- Runs take runtimes that are the same to runtimes that are the same. -/
theorem SameRuntime.runFrom {m m' : Impl} (h : SameRuntime m m') (steps : List Step) :
    SameRuntime (runFrom c m steps) (runFrom c m' steps) := by
  cases steps with
  | nil => exact h
  | cons st steps =>
    show SameRuntime (OffloadFabric.runFrom c (st.next c m) steps)
      (OffloadFabric.runFrom c (st.next c m') steps)
    rw [h.next st]
    exact .refl _

/-- What a request makes of the runtime: nothing, or the step it asks for. -/
inductive Serves (c : FabricConfig) (a : Arrival) (m : Impl) : Impl → Prop
  | idle {m' : Impl} (h : SameRuntime m m') : Serves c a m m'
  | stepped {st : Step} (h : a.step c = some st) : Serves c a m (st.next c m)

private theorem onFabric_fabric {α : Type} (opcode : Opcode) (faults : List Fault)
    (x : FabricM α) : ((onFabric opcode faults x).exec s).2.fabric =
      (x.exec (s.fabric.facing faults)).2 := by
  unfold onFabric
  rw [exec_bind, exec_get]
  simp only
  cases x.exec (s.fabric.facing faults) with
  | mk r fabric => cases r <;> rfl

/-- A query leaves the runtime. -/
private theorem serves_query {α : Type} (opcode : Opcode) {x : FabricM α}
    (hx : ∀ m, (x.exec m).2 = m) :
    Serves c a s.fabric ((onFabric opcode a.faults x).exec s).2.fabric := by
  rw [onFabric_fabric, hx]
  exact .idle (.facing _ _)

/-- What comes behind a call leaves the runtime. -/
private theorem fabric_bind {α β : Type} {x : ServerM α} {f : α → ServerM β}
    (hf : ∀ v t, ((f v).exec t).2.fabric = t.fabric) :
    ((x >>= f).exec s).2.fabric = (x.exec s).2.fabric := by
  rw [exec_bind]
  cases x.exec s with
  | mk r t =>
    cases r with
    | error e => rfl
    | ok v => exact hf v t

private theorem fabric_liftExcept {α : Type} (x : Except Error α) :
    ((liftExcept x : ServerM α).exec s).2.fabric = s.fabric := by
  rw [exec_liftExcept]

/-- What is done with a decoded payload. -/
private theorem serves_decoded {α β : Type} (reader : Reader α) {f : α → ServerM β}
    (hf : ∀ v, a.decoded c reader = some v →
      Serves c a s.fabric ((f v).exec s).2.fabric) :
    Serves c a s.fabric
      (((liftExcept (decodeExact c.bounds reader a.request.payload)) >>= f).exec s).2.fabric := by
  rw [exec_bind, exec_liftExcept]
  cases hdecode : decodeExact c.bounds reader a.request.payload with
  | error e => exact .idle (.refl _)
  | ok v =>
    refine hf v ?_
    unfold Arrival.decoded
    rw [hdecode]
    rfl

private theorem snd_exec_return {x : FabricM Unit} (m : Impl) :
    ((do x; return none : FabricM (Option AssignmentRecord)).exec m).2 = (x.exec m).2 := by
  rw [exec_bind]
  cases x.exec m with
  | mk r m' => cases r <;> rfl

private theorem snd_exec_some {x : FabricM AssignmentRecord} (m : Impl) :
    ((some <$> x : FabricM (Option AssignmentRecord)).exec m).2 = (x.exec m).2 := by
  rw [exec_map]

/-- A call of an operation is the step that the request asks for. -/
private theorem serves_call {α : Type} (opcode : Opcode) {x : FabricM α} {op : Op}
    (hop : a.op c = some op)
    (hx : ∀ m, ((op.program c a.now).exec m).2 = (x.exec m).2) :
    Serves c a s.fabric ((onFabric opcode a.faults x).exec s).2.fabric := by
  rw [onFabric_fabric, ← hx]
  have hstep : a.step c = some { op, now := a.now, faults := a.faults } := by
    unfold Arrival.step
    rw [hop]
    rfl
  exact .stepped hstep

private theorem serves_submitted {α : Type} (opcode : Opcode) (reader : Reader α)
    {x : α → FabricM Unit} (op : α → Op)
    (hop : a.op c = (a.decoded c reader).map op)
    (hx : ∀ v, (op v).program c a.now = do x v; return none) :
    Serves c a s.fabric ((submitted c.bounds a opcode reader x).exec s).2.fabric := by
  refine serves_decoded reader fun v hv ↦ ?_
  rw [fabric_bind fun _ _ ↦ rfl]
  refine serves_call opcode (hop.trans (congrArg (Option.map op) hv)) fun m ↦ ?_
  rw [hx, snd_exec_return]

private theorem serves_answered {α : Type} (opcode : Opcode) (reader : Reader α)
    {x : α → FabricM AssignmentRecord} (op : α → Op)
    (hop : a.op c = (a.decoded c reader).map op)
    (hx : ∀ v, (op v).program c a.now = some <$> x v) :
    Serves c a s.fabric ((answered c.bounds a opcode reader x).exec s).2.fabric := by
  refine serves_decoded reader fun v hv ↦ ?_
  rw [fabric_bind fun _ _ ↦ fabric_liftExcept _]
  refine serves_call opcode (hop.trans (congrArg (Option.map op) hv)) fun m ↦ ?_
  rw [hx, snd_exec_some]

/-- A branch hands the runtime the step its request asks for, or leaves it. -/
theorem perform_serves {opcode : Opcode} (hopcode : Opcode.ofCode? a.request.opcode = some opcode) :
    Serves c a s.fabric ((perform c reports a opcode).exec s).2.fabric := by
  have hop : a.op c = a.asks c opcode := by
    unfold Arrival.op
    rw [hopcode]
    rfl
  have hread : ∀ opcode : Opcode, Serves c a s.fabric (((do
      let call ← liftExcept (reports.read opcode a.request.payload)
      onFabric opcode a.faults do
        let m ← get
        liftExcept (call m)) : ServerM Bytes).exec s).2.fabric := by
    intro opcode
    rw [exec_bind, exec_liftExcept]
    cases reports.read opcode a.request.payload with
    | error e => exact .idle (.refl _)
    | ok call =>
      apply serves_query
      intro m
      simp only [exec_bind, exec_get, exec_liftExcept]
  cases opcode with
  | registerFunction =>
    exact serves_submitted _ _ .registerFunction hop fun _ ↦ rfl
  | ingestTopology =>
    exact serves_submitted _ _ .ingestTopology hop fun _ ↦ rfl
  | ingestCapabilities =>
    exact serves_submitted _ _ .ingestCapabilities hop fun _ ↦ rfl
  | ingestPolicy =>
    exact serves_submitted _ _ .ingestPolicy hop fun _ ↦ rfl
  | ingestObservations =>
    exact serves_submitted _ _ .ingestObservations hop fun _ ↦ rfl
  | grantAuthority =>
    exact serves_submitted _ _ .grantAuthority hop fun _ ↦ rfl
  | withdrawAuthority =>
    exact serves_submitted _ _ (fun v ↦ .withdrawAuthority v.1 v.2)
      hop fun _ ↦ rfl
  | reportEffect =>
    exact serves_answered _ _ .reportEffect hop fun _ ↦ rfl
  | apply =>
    exact serves_answered _ _ (fun v ↦ .apply v.1 v.2) hop
      fun _ ↦ rfl
  | revoke =>
    exact serves_answered _ _ .revoke hop fun _ ↦ rfl
  | replace =>
    exact serves_answered _ _ .replace hop fun _ ↦ rfl
  | reauthorize =>
    exact serves_answered _ _ .reauthorize hop fun _ ↦ rfl
  | compact =>
    exact serves_submitted _ _ (fun _ ↦ .compact) hop fun _ ↦ rfl
  | revalidate =>
    refine serves_decoded _ fun v hv ↦ ?_
    rw [exec_bind, exec_get]
    simp only
    rw [fabric_bind fun _ _ ↦ fabric_liftExcept _]
    refine serves_call _ (show a.op c = some (.revalidate a.cancel) from hop.trans ?_) fun m ↦ ?_
    · unfold Arrival.asks
      rw [hv]
      rfl
    · unfold Op.program
      simp only [exec_bind]
      cases (Fabric.revalidate c a.cancel (a.now 0)).exec m with
      | mk r m' => cases r <;> rfl
  | getAssignment =>
    refine serves_decoded _ fun v _ ↦ ?_
    rw [fabric_bind fun _ _ ↦ fabric_liftExcept _]
    refine serves_query _ fun m ↦ ?_
    unfold getAssignment
    rw [exec_bind, exec_get]
    simp only
    cases m.state.assignments.find? v with
    | none => rfl
    | some record => rfl
  | hello =>
    rw [show perform c reports a .hello = liftExcept (hello c.bounds a.request.payload) from rfl,
      fabric_liftExcept]
    exact .idle (.refl _)
  | ping =>
    refine serves_decoded _ fun _ _ ↦ ?_
    rw [fabric_bind fun _ _ ↦ fabric_liftExcept _]
    exact serves_query _ fun m ↦ rfl
  | plan =>
    refine serves_decoded _ fun v _ ↦ ?_
    rw [fabric_bind fun _ _ ↦ fabric_liftExcept _]
    refine serves_query _ fun m ↦ ?_
    unfold plan
    by_cases hrun : m.running = true
    · simp only [exec_bind, exec_get, exec_check, hrun, if_true, exec_liftExcept]
    · simp only [exec_bind, exec_get, exec_check, if_neg hrun]
  | stateDigest =>
    refine serves_decoded _ fun _ _ ↦ ?_
    rw [fabric_bind fun _ _ ↦ fabric_liftExcept _]
    exact serves_query _ fun m ↦ rfl
  | shutdown => exact serves_decoded _ fun _ _ ↦ .idle (.refl _)
  | stats => exact hread .stats
  | listAssignments => exact hread .listAssignments
  | getScope => exact hread .getScope
  | explainAssignment => exact hread .explainAssignment
  | explainRequest => exact hread .explainRequest
  | «export» => exact hread .export
  | recoveryReport => exact hread .recoveryReport
  | verifyInvariants => exact hread .verifyInvariants

private theorem cachedResponse_same {request : Frame} :
    ((cachedResponse request).exec s).2 = s := by
  unfold cachedResponse
  rw [exec_bind, exec_get]
  simp only
  by_cases hid : request.requestId = 0
  · rw [if_pos hid]
    rfl
  · rw [if_neg hid]
    cases s.cache[request.requestId]? with
    | none => rfl
    | some entry =>
      by_cases hdigest : entry.requestDigest = requestDigest request
      · simp only [if_pos hdigest, exec_pure]
      · simp only [if_neg hdigest, exec_throw]

private theorem remember_fabric {b : Bounds} {request : Frame} (payload : Bytes) (flags : UInt16) :
    ((remember b request payload flags).exec s).2.fabric = s.fabric := by
  unfold remember
  by_cases hid : request.requestId = 0
  · rw [if_pos hid]
    rfl
  · rw [if_neg hid, exec_modify]
    simp only
    split <;> rfl

/-- What follows the lookup in the cache. -/
private theorem passed_serves :
    let x : ServerM Frame := match Opcode.ofCode? a.request.opcode with
      | none => throw ⟨.unsupportedOpcode, "opcode is not implemented"⟩
      | some opcode => do
        let payload ← perform c reports a opcode
        if opcode.remembered then remember c.bounds a.request payload 0
        return { a.request with flags := 0, payload }
    Serves c a s.fabric (x.exec s).2.fabric := by
  cases hopcode : Opcode.ofCode? a.request.opcode with
  | none => exact .idle (.refl _)
  | some opcode =>
    simp only
    rw [fabric_bind fun payload t ↦ ?_]
    · exact perform_serves hopcode
    · cases opcode.remembered with
      | false => rfl
      | true =>
        rw [if_pos rfl, fabric_bind fun _ _ ↦ rfl]
        exact remember_fabric payload 0

/-- One request. -/
theorem serve_serves (s : Server) : Serves c a s.fabric (serve c reports s a).fabric := by
  unfold serve handleRequest
  rw [exec_bind]
  have hsame := @cachedResponse_same s a.request
  cases hcached : (cachedResponse a.request).exec s with
  | mk r t =>
    rw [hcached] at hsame
    subst hsame
    cases r with
    | error e => exact .idle (.refl _)
    | ok response =>
      cases response with
      | some response => exact .idle (.refl _)
      | none => exact passed_serves

/-! ## Runs -/

/-- The requests of a served runtime are taken in their order and each at most once: behind any
arrivals the runtime is that behind a run of steps that some of them ask for. -/
theorem served_is_run (c : FabricConfig) (reports : Reports) (s : Server)
    (arrivals : List Arrival) :
    ∃ steps, steps.Sublist (arrivals.filterMap (Arrival.step c)) ∧
      SameRuntime (runFrom c s.fabric steps) (serveAll c reports s arrivals).fabric := by
  induction arrivals generalizing s with
  | nil => exact ⟨[], .slnil, .refl _⟩
  | cons a arrivals ih =>
    obtain ⟨steps, hsteps, hrun⟩ := ih (serve c reports s a)
    have hserves := @serve_serves c reports a s
    generalize (serve c reports s a).fabric = m at hserves hrun
    cases hserves with
    | idle hsame =>
      refine ⟨steps, hsteps.trans (.filterMap _ (List.sublist_cons_self _ _)), ?_⟩
      exact (hsame.runFrom steps).trans hrun
    | @stepped st hstep =>
      refine ⟨st :: steps, ?_, hrun⟩
      rw [List.filterMap_cons_some hstep]
      exact hsteps.cons_cons st

end Service

end OffloadFabric
