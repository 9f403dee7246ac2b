import OffloadFabric.Fabric.Ingest
import OffloadFabric.Fabric.Authorize
import OffloadFabric.Fabric.Lifecycle
import OffloadFabric.Fabric.Recovery

/-!
# Runs

A run is a sequence of operations on one runtime and its successors, each with the clock it
reads and the faults its durable calls meet. A crash inside an operation is that operation with
every durable call after the crash point lost, followed by the loss of the process.
-/

namespace OffloadFabric

open Lib Fabric

/-- The operations of a run, `include/nof/fabric.hpp:250-389`. -/
inductive Op where
  | start (boot : BootId)
  | shutdown
  | acceptRecovery
  | compact
  | crash
  | registerFunction (f : FunctionDescriptor)
  | ingestTopology (t : TopologySnapshot)
  | ingestCapabilities (report : CapabilityReport)
  | ingestPolicy (p : PolicySnapshot)
  | ingestObservations (report : ObservationReport)
  | grantAuthority (g : AuthorityGrant)
  | withdrawAuthority (id : AuthorityId) (reason : ReasonCode)
  | apply (request : PlacementRequest) (options : ApplyOptions)
  | applyPlan (planned : PlanResult) (options : ApplyOptions)
  | replace (request : ReplaceRequest)
  | revoke (request : RevokeRequest)
  | reauthorize (request : ReauthorizeRequest)
  | reportEffect (report : EffectReport)
  | revalidate (cancel : CancelToken)

/-- The program of an operation; the operations on assignments answer with a record. -/
def Op.program (c : FabricConfig) (now : ClockReadings) : Op → FabricM (Option AssignmentRecord)
  | .start boot => do Fabric.start c boot (now 0); return none
  | .shutdown => do Fabric.shutdown c; return none
  | .acceptRecovery => do Fabric.acceptRecovery; return none
  | .compact => do Fabric.compact c; return none
  | .crash => do Fabric.crash; return none
  | .registerFunction f => do Fabric.registerFunction c f; return none
  | .ingestTopology t => do Fabric.ingestTopology c t (now 0); return none
  | .ingestCapabilities report => do Fabric.ingestCapabilities c report (now 0); return none
  | .ingestPolicy p => do Fabric.ingestPolicy c p (now 0); return none
  | .ingestObservations report => do Fabric.ingestObservations c report (now 0); return none
  | .grantAuthority g => do Fabric.grantAuthority c g; return none
  | .withdrawAuthority id reason => do Fabric.withdrawAuthority c id reason now; return none
  | .apply request options => some <$> Fabric.apply c request options now
  | .applyPlan planned options => some <$> Fabric.applyPlan c planned options now
  | .replace request => some <$> Fabric.replace c request now
  | .revoke request => some <$> Fabric.revoke c request now
  | .reauthorize request => some <$> Fabric.reauthorize c request now
  | .reportEffect report => some <$> Fabric.reportEffect c report now
  | .revalidate cancel => do let _ ← Fabric.revalidate c cancel (now 0); return none

/-- One step of a run: an operation, the clock it reads and the faults it meets. -/
structure Step where
  op : Op
  now : ClockReadings
  faults : List Fault := []

/-- The runtime before a step, with the faults of the step ahead. -/
def Impl.facing (m : Impl) (faults : List Fault) : Impl :=
  { m with log := { m.log with faults } }

/-- The answer and the runtime after a step. -/
def Step.exec (c : FabricConfig) (m : Impl) (st : Step) :
    Except Error (Option AssignmentRecord) × Impl :=
  (st.op.program c st.now).exec (m.facing st.faults)

/-- The runtime after a step. -/
def Step.next (c : FabricConfig) (m : Impl) (st : Step) : Impl := (st.exec c m).2

/-- The runtime after a sequence of steps. -/
def runFrom (c : FabricConfig) (m : Impl) (steps : List Step) : Impl :=
  steps.foldl (Step.next c) m

/-- The runtime after a run from an empty store. -/
def run (c : FabricConfig) (steps : List Step) : Impl := runFrom c {} steps

/-! ## A small deployment -/

namespace Sample

def host : HostId := ⟨ascii "h", .inr (by decide)⟩

def device : DeviceId := ⟨ascii "d", .inr (by decide)⟩

def source : SourceId := ⟨ascii "s", .inr (by decide)⟩

def function : FunctionId := ⟨ascii "f", .inr (by decide)⟩

def boot : BootId := ⟨ascii "0123456789abcdef0123456789abcdef", .inr (by decide)⟩

/-- One host with one device. -/
def topology : TopologySnapshot where
  generation := 1
  provenance := ⟨source, 1⟩
  freshness := ⟨1, 1000⟩
  hosts := [⟨host, []⟩]
  devices := [⟨device, host, .dpu, ⟨1, boot⟩, ⟨{ flows := 10 }⟩, [], false⟩]
  links := []

/-- One rule that asks for the device only. -/
def policy : PolicySnapshot where
  generation := 1
  provenance := ⟨source, 1⟩
  freshness := ⟨1, 1000⟩
  rules := [{
    cls := .routeLookup
    allowedKinds := [.dpu]
    requireAuthority := false
    requireFreshObservation := false
    requireCapability := false }]

/-- A placement of the function on the whole system. -/
def request : PlacementRequest where
  function := function
  cls := .routeLookup
  scope := { kind := .global }

/-- An operation at a fixed time, without faults. -/
def step (op : Op) (now : Micros := 2) : Step where
  op := op
  now := fun _ ↦ now

/-- A run that has topology and policy. -/
def ready : List Step :=
  [step (.start boot), step (.ingestTopology topology), step (.ingestPolicy policy)]

/-- A run that has placed the function. -/
def placed : List Step := ready ++ [step (.apply request {})]

/-- The first assignment of a run. -/
def first : AssignmentId := ⟨ascii "as-0000000000000001", .inr (by decide)⟩

/-- A report on the first assignment of a run. -/
def report : EffectReport where
  assignment := first
  attempt := 1
  generation := 1
  fence := ⟨1, 1⟩
  incarnation := ⟨1, boot⟩
  capabilityGeneration := 0
  outcome := .applied
  observedAt := 2

/-- A run whose placement was verified as applied. -/
def applied : List Step := placed ++ [step (.reportEffect report)]

end Sample

end OffloadFabric
