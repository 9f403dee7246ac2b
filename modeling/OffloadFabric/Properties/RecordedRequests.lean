import OffloadFabric.Fabric.Answers
import OffloadFabric.Lib.Simulation
import OffloadFabric.Properties.ServedRuns

/-!
# Recorded requests

What a request comes to whose identifier is recorded already (`src/fabric.cpp:1586-1595`,
`src/fabric.cpp:3310-3332` and the lookups of the six operations that make them): it is answered
from the record or refused, and leaves the runtime and its log as they are.
-/

namespace OffloadFabric

open Lib Lib.Fallible FabricM

variable {c : FabricConfig} {m : Impl} {st : Step}

/-! ## One request -/

/-- A program leaves the runtime, and answers only with what is recorded for the request. -/
structure Recalls (c : FabricConfig) (st : Step) (m : Impl) (x : FabricM AssignmentRecord) :
    Prop where
  idle : (x.exec m).2 = m
  recalled : ∀ r, (x.exec m).1 = .ok r → Recalled c m.state st.op r

namespace Recalls

theorem of_error {x : FabricM AssignmentRecord} {e : Error} (h : x.exec m = (.error e, m)) :
    Recalls c st m x where
  idle := by rw [h]
  recalled r hr := by
    rw [h] at hr
    cases hr

theorem of_exec_eq {x y : FabricM AssignmentRecord} (hx : Recalls c st m x)
    (h : y.exec m = x.exec m) : Recalls c st m y where
  idle := by rw [h, hx.idle]
  recalled r hr := hx.recalled r (by rw [← h, hr])

theorem checkAccepting_bind {f : Unit → FabricM AssignmentRecord} (h : Recalls c st m (f ())) :
    Recalls c st m (Fabric.checkAccepting >>= f) := by
  rcases Fabric.exec_checkAccepting_bind f m with ⟨-, -, heq⟩ | ⟨e, heq⟩
  · exact h.of_exec_eq heq
  · exact of_error heq

theorem check_bind {p : Prop} [Decidable p] {e : Error} {f : Unit → FabricM AssignmentRecord}
    (h : Recalls c st m (f ())) : Recalls c st m (check p e >>= f) := by
  by_cases hp : p
  · refine h.of_exec_eq ?_
    rw [exec_bind, exec_check, if_pos hp]
  · refine of_error (e := e) ?_
    rw [exec_bind, exec_check, if_neg hp]

theorem found_bind {α : Type} {o : Option α} {e : Error} {f : α → FabricM AssignmentRecord}
    (h : ∀ a, o = some a → Recalls c st m (f a)) : Recalls c st m (found o e >>= f) := by
  cases o with
  | none => exact of_error (e := e) rfl
  | some a => exact (h a rfl).of_exec_eq rfl

theorem getState_bind {f : FabricState → FabricM AssignmentRecord}
    (h : Recalls c st m (f m.state)) : Recalls c st m (getState >>= f) := h.of_exec_eq rfl

/-- What is recorded under the request's identifier is found, and is the answer. -/
theorem exists_cached {id : RequestId} {fingerprint : Digest}
    (hk : st.op.lookup c m.state = some (id, fingerprint)) (hrec : ¬ st.op.Missed c m.state)
    (detail : String) :
    ∃ cached, Fabric.cachedAnswer m.state id fingerprint detail = some cached ∧
      Recalls c st m (liftExcept cached) := by
  cases hcached : Fabric.cachedAnswer m.state id fingerprint detail with
  | none => exact absurd (Fabric.missed_of_lookup hk hcached) hrec
  | some cached =>
    refine ⟨cached, rfl, ?_, ?_⟩
    · rw [exec_liftExcept]
    · intro r hr
      rw [exec_liftExcept] at hr
      exact Fabric.recalled_of_lookup hk hcached hr

end Recalls

namespace Fabric

theorem recalls_applyLocked {request : PlacementRequest} {options : ApplyOptions}
    (hk : st.op.lookup c m.state = some (request.requestId, fingerprintOf c.bounds request))
    (hrec : ¬ st.op.Missed c m.state) :
    Recalls c st m (applyLocked c request options st.now) := by
  unfold applyLocked
  apply Recalls.check_bind
  apply Recalls.getState_bind
  obtain ⟨cached, hcached, hanswer⟩ :=
    Recalls.exists_cached hk hrec "request identifier was reused with a different payload"
  dsimp only
  rw [hcached]
  exact hanswer

theorem recalls_apply {request : PlacementRequest} {options : ApplyOptions}
    (hop : st.op = .apply request options) (hrec : ¬ st.op.Missed c m.state) :
    Recalls c st m (apply c request options st.now) := by
  unfold apply
  apply Recalls.checkAccepting_bind
  apply recalls_applyLocked ?_ hrec
  rw [hop]
  rfl

theorem recalls_applyPlan {planned : PlanResult} {options : ApplyOptions}
    (hop : st.op = .applyPlan planned options) (hrec : ¬ st.op.Missed c m.state) :
    Recalls c st m (applyPlan c planned options st.now) := by
  have hk : st.op.lookup c m.state = some (options.requestId, planned.plan.planDigest) := by
    rw [hop]
    rfl
  unfold applyPlan
  apply Recalls.checkAccepting_bind
  apply Recalls.check_bind
  apply Recalls.getState_bind
  obtain ⟨cached, hcached, hanswer⟩ :=
    Recalls.exists_cached hk hrec "request identifier was reused with a different plan"
  rw [hcached]
  exact hanswer

/-- A replacement is looked up under the placement it asks for, which the assignment in place
completes. -/
theorem recalls_replace {request : ReplaceRequest} (hop : st.op = .replace request)
    (hrec : ¬ st.op.Missed c m.state) : Recalls c st m (replace c request st.now) := by
  unfold replace
  apply Recalls.checkAccepting_bind
  apply Recalls.getState_bind
  apply Recalls.found_bind
  intro current hcurrent
  apply recalls_applyLocked ?_ hrec
  rw [hop]
  simp only [Op.lookup, hcurrent, Option.map_some]

theorem recalls_revoke {request : RevokeRequest} (hop : st.op = .revoke request)
    (hrec : ¬ st.op.Missed c m.state) : Recalls c st m (revoke c request st.now) := by
  have hk : st.op.lookup c m.state = some (request.requestId, request.fingerprint) := by
    rw [hop]
    rfl
  unfold revoke
  apply Recalls.checkAccepting_bind
  apply Recalls.getState_bind
  obtain ⟨cached, hcached, hanswer⟩ := Recalls.exists_cached hk hrec reusedDetail
  rw [hcached]
  exact hanswer

theorem recalls_reauthorize {request : ReauthorizeRequest} (hop : st.op = .reauthorize request)
    (hrec : ¬ st.op.Missed c m.state) : Recalls c st m (reauthorize c request st.now) := by
  have hk : st.op.lookup c m.state = some (request.requestId, request.fingerprint) := by
    rw [hop]
    rfl
  unfold reauthorize
  apply Recalls.checkAccepting_bind
  apply Recalls.getState_bind
  obtain ⟨cached, hcached, hanswer⟩ := Recalls.exists_cached hk hrec reusedDetail
  rw [hcached]
  exact hanswer

theorem recalls_reportEffect {report : EffectReport} (hop : st.op = .reportEffect report)
    (hrec : ¬ st.op.Missed c m.state) : Recalls c st m (reportEffect c report st.now) := by
  have hk : st.op.lookup c m.state = some (report.requestId, report.fingerprint c.bounds) := by
    rw [hop]
    rfl
  unfold reportEffect
  apply Recalls.checkAccepting_bind
  apply Recalls.getState_bind
  obtain ⟨cached, hcached, hanswer⟩ := Recalls.exists_cached hk hrec reusedDetail
  dsimp only
  rw [hcached]
  exact hanswer

end Fabric

/-- The request of a step is recorded already, with whatever payload. -/
def Step.Repeats (c : FabricConfig) (m : Impl) (st : Step) : Prop := ¬ st.op.Missed c m.state

instance (c : FabricConfig) (m : Impl) (st : Step) : Decidable (st.Repeats c m) :=
  inferInstanceAs (Decidable (¬ ∀ k ∈ st.op.lookup c m.state,
    m.state.findIdempotency k.1 = none))

private theorem Recalls.answered {x : FabricM AssignmentRecord} (h : Recalls c st m x) :
    ((some <$> x).exec m).2 = m ∧
      ∀ answer, ((some <$> x).exec m).1 = .ok answer →
        ∃ r, answer = some r ∧ Recalled c m.state st.op r := by
  obtain ⟨hidle, hrecalled⟩ := h
  rw [map_eq_pure_bind, exec_bind]
  cases hx : x.exec m with
  | mk answer m' =>
    rw [hx] at hidle hrecalled
    cases answer with
    | error e => exact ⟨hidle, fun _ hr ↦ by cases hr⟩
    | ok r =>
      refine ⟨hidle, fun answer hr ↦ ?_⟩
      cases hr
      exact ⟨r, rfl, hrecalled r rfl⟩

open Fabric in
/-- A request that is recorded leaves the runtime, and is answered from its record or refused. -/
theorem Step.exec_repeats (h : st.Repeats c m) :
    st.next c m = m.facing st.faults ∧
      ∀ answer, (st.exec c m).1 = .ok answer →
        ∃ r, answer = some r ∧ Recalled c m.state st.op r := by
  have hrec : ¬ st.op.Missed c (m.facing st.faults).state := h
  obtain ⟨x, hx, hrecalls⟩ : ∃ x, st.op.program c st.now = some <$> x ∧
      Recalls c st (m.facing st.faults) x := by
    cases hst : st.op with
    | apply request options => exact ⟨_, rfl, recalls_apply hst hrec⟩
    | applyPlan planned options => exact ⟨_, rfl, recalls_applyPlan hst hrec⟩
    | replace request => exact ⟨_, rfl, recalls_replace hst hrec⟩
    | revoke request => exact ⟨_, rfl, recalls_revoke hst hrec⟩
    | reauthorize request => exact ⟨_, rfl, recalls_reauthorize hst hrec⟩
    | reportEffect report => exact ⟨_, rfl, recalls_reportEffect hst hrec⟩
    | _ =>
      -- the other operations have no request identifier
      rw [hst] at hrec
      exact absurd (fun k hk ↦ by cases hk) hrec
  unfold Step.next Step.exec
  rw [hx]
  exact hrecalls.answered

/-! ## Runs -/

/-- The step as a call of the runtime. -/
def Step.call (c : FabricConfig) (st : Step) : FabricM (Option AssignmentRecord) := do
  modify fun m ↦ m.facing st.faults
  st.op.program c st.now

theorem Step.exec_call (c : FabricConfig) (st : Step) (m : Impl) :
    (st.call c).exec m = st.exec c m := rfl

/-- The runtime behind the calls of a run is the one behind its steps. -/
theorem answers_call (c : FabricConfig) (steps : List Step) (m : Impl) :
    (answers (Step.call c) steps m).2 = runFrom c m steps := by
  induction steps generalizing m with
  | nil => rfl
  | cons st rest ih => exact ih (st.next c m)

open Service (SameRuntime) in
theorem Step.agree_call {m m' : Impl} (st : Step) (h : SameRuntime m m') :
    Agree SameRuntime (st.call c) (st.call c) m m' := by
  have hfacing : m'.facing st.faults = m.facing st.faults := congrArg (·.facing st.faults) h
  unfold Agree
  rw [st.exec_call, st.exec_call]
  unfold Step.exec
  rw [hfacing]
  exact ⟨rfl, .refl _⟩

/-- The steps of a run whose requests are not recorded where they are made, with their answers. -/
def firstDeliveries (c : FabricConfig) (m : Impl) (steps : List Step) :
    List (Step × Except Error (Option AssignmentRecord)) :=
  active (fun m st ↦ st.Repeats c m) (Step.call c) steps m

open Service (SameRuntime) in
/-- **Repeated requests can be left out of a run**: the first deliveries are answered alike without
them and leave the same runtime. Each repeated request is answered from its record or refused. -/
theorem repeats_left_out (c : FabricConfig) (m : Impl) (steps : List Step) :
    (answers (Step.call c) ((firstDeliveries c m steps).map Prod.fst) m).1 =
        (firstDeliveries c m steps).map Prod.snd ∧
      SameRuntime (runFrom c m ((firstDeliveries c m steps).map Prod.fst)) (runFrom c m steps) ∧
      ∀ before st after, steps = before ++ st :: after → st.Repeats c (runFrom c m before) →
        (∃ e, (st.exec c (runFrom c m before)).1 = .error e) ∨
          ∃ r, (st.exec c (runFrom c m before)).1 = .ok (some r) ∧
            Recalled c (runFrom c m before).state st.op r := by
  have hinert : ∀ m (st : Step), st.Repeats c m → SameRuntime m ((st.call c).exec m).2 := by
    intro m st h
    show SameRuntime m (st.next c m)
    rw [(st.exec_repeats h).1]
    exact .facing m st.faults
  have hleft : (answers (Step.call c) ((firstDeliveries c m steps).map Prod.fst) m).1 =
        (firstDeliveries c m steps).map Prod.snd ∧
      SameRuntime (answers (Step.call c) ((firstDeliveries c m steps).map Prod.fst) m).2
        (answers (Step.call c) steps m).2 :=
    answers_active (S := SameRuntime) (fun _ _ _ ↦ .trans) (fun _ _ st h ↦ st.agree_call h)
      hinert (.refl m) steps
  rw [answers_call, answers_call] at hleft
  refine ⟨hleft.1, hleft.2, fun before st after _ hrepeats ↦ ?_⟩
  cases hanswer : (st.exec c (runFrom c m before)).1 with
  | error e => exact .inl ⟨e, rfl⟩
  | ok answer =>
    obtain ⟨r, rfl, hrecalled⟩ := (st.exec_repeats hrepeats).2 answer hanswer
    exact .inr ⟨r, rfl, hrecalled⟩

end OffloadFabric
