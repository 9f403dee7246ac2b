import OffloadFabric.Model.Scope
import OffloadFabric.Base.Bounds

/-!
# Topology evidence

`include/nof/topology.hpp` and `src/topology.cpp`: hosts, devices, links and the structural
validation of a snapshot. Lookups are binary searches over lists that validation has found
sorted; here they skip the elements below the key, which is the same element.
-/

namespace OffloadFabric

open Lib

/-- `DeviceKind`, `include/nof/topology.hpp:16-21`. -/
inductive DeviceKind where
  | hostStack | nic | smartNic | dpu
  deriving DecidableEq, Repr

namespace DeviceKind

/-- The durable number of a device kind, `include/nof/topology.hpp:17-20`. -/
def code : DeviceKind → UInt8
  | .hostStack => 1
  | .nic => 2
  | .smartNic => 3
  | .dpu => 4

/-- The kind a raw number names, `src/topology.cpp:7-19`. -/
def ofCode? : UInt8 → Option DeviceKind
  | 1 => some .hostStack
  | 2 => some .nic
  | 3 => some .smartNic
  | 4 => some .dpu
  | _ => none

instance : Coded DeviceKind UInt8 where
  code := code
  ofCode? := ofCode?
  ofCode?_code c := by cases c <;> rfl

end DeviceKind

/-- `LinkKind`, `include/nof/topology.hpp:30-33`. -/
inductive LinkKind where
  | peerFabric | hostAttach
  deriving DecidableEq, Repr

namespace LinkKind

/-- The durable number of a link kind, `include/nof/topology.hpp:31-32`. -/
def code : LinkKind → UInt8
  | .peerFabric => 1
  | .hostAttach => 2

/-- The kind a raw number names, `src/topology.cpp:36-44`. -/
def ofCode? : UInt8 → Option LinkKind
  | 1 => some .peerFabric
  | 2 => some .hostAttach
  | _ => none

instance : Coded LinkKind UInt8 where
  code := code
  ofCode? := ofCode?
  ofCode?_code c := by cases c <;> rfl

end LinkKind

/-- `HostRecord`, `include/nof/topology.hpp:38-43`. -/
structure HostRecord where
  id : HostId
  labels : List Bytes
  deriving DecidableEq

/-- `DeviceRecord`, `include/nof/topology.hpp:45-55`. -/
structure DeviceRecord where
  id : DeviceId
  host : HostId
  kind : DeviceKind
  incarnation : IncarnationId
  capacity : CapacityVector
  labels : List Bytes
  decommissioned : Bool
  deriving DecidableEq

/-- `LinkRecord`, `include/nof/topology.hpp:57-64`. -/
structure LinkRecord where
  a : DeviceId
  b : DeviceId
  kind : LinkKind
  deriving DecidableEq

/-- The defaulted three-way order of links, `include/nof/topology.hpp:63`. -/
def LinkRecord.precedes (x y : LinkRecord) : Bool :=
  x.a < y.a || (x.a == y.a && (x.b < y.b || (x.b == y.b && x.kind.code < y.kind.code)))

/-- `TopologySnapshot`, `include/nof/topology.hpp:66-76`. -/
structure TopologySnapshot where
  generation : TopologyGeneration
  provenance : Provenance
  freshness : Freshness
  hosts : List HostRecord
  devices : List DeviceRecord
  links : List LinkRecord
  deriving DecidableEq

/-- `std::lower_bound` over a list sorted by the projected identifier. -/
def lowerBound {α : Type} {d : IdDomain} (key : α → Token d) (xs : List α) (id : Token d) :
    Option α :=
  match xs.dropWhile fun x ↦ decide (key x < id) with
  | [] => none
  | x :: _ => if key x = id then some x else none

/-- A binary search returns an element of the list that carries the identifier. -/
theorem lowerBound_eq_some {α : Type} {d : IdDomain} {key : α → Token d} {xs : List α}
    {id : Token d} {x : α} (h : lowerBound key xs id = some x) : x ∈ xs ∧ key x = id := by
  unfold lowerBound at h
  split at h
  · cases h
  · next y ys hd =>
      split at h
      · next hk =>
          cases h
          have hmem : x ∈ xs.dropWhile fun x ↦ decide (key x < id) := by
            rw [hd]
            exact List.mem_cons_self
          exact ⟨(List.dropWhile_sublist _).mem hmem, hk⟩
      · cases h

namespace TopologySnapshot

/-- `find_device`, `src/topology.cpp:56-64`. -/
def findDevice (t : TopologySnapshot) (id : DeviceId) : Option DeviceRecord :=
  lowerBound DeviceRecord.id t.devices id

/-- `find_host`, `src/topology.cpp:66-74`. -/
def findHost (t : TopologySnapshot) (id : HostId) : Option HostRecord :=
  lowerBound HostRecord.id t.hosts id

end TopologySnapshot

/-- `check_labels`, `src/topology.cpp:78-92`, after the label `previous`. -/
def checkLabels (field : String) : Bytes → List Bytes → Result Unit
  | _, [] => .ok ()
  | previous, label :: labels => do
      require (isValidToken label = true)
        ⟨.invalidIdentifier, field ++ " label is not a canonical token: " ++ label.text⟩
      require (previous = [] ∨ compare previous label = .lt)
        ⟨.duplicateIdentity, field ++ " labels must be sorted and unique"⟩
      checkLabels field label labels

/-- `check_freshness`, `src/topology.cpp:94-103`; the same text rule serves
`check_record_freshness`, `src/capability.cpp:45-54`. -/
def checkFreshness (f : Freshness) (field : String) : Result Unit := do
  require (0 < f.observedAt) ⟨.malformedInput, field ++ " observation time is missing"⟩
  require (f.observedAt < f.validUntil)
    ⟨.malformedInput, field ++ " validity interval is empty or inverted"⟩

/-- `check_canonical_order`, `src/topology.cpp:107-128`. -/
def checkCanonicalOrder (t : TopologySnapshot) : Result Unit := do
  require (∀ p ∈ adjacent t.hosts, p.1.id < p.2.id)
    ⟨.duplicateIdentity, "hosts must be sorted by identifier without duplicates"⟩
  require (∀ p ∈ adjacent t.devices, p.1.id < p.2.id)
    ⟨.duplicateIdentity, "devices must be sorted by identifier without duplicates"⟩
  require (∀ p ∈ adjacent t.links, p.1.precedes p.2 = true)
    ⟨.duplicateIdentity, "links must be sorted by endpoints without duplicates"⟩

/-- The host loop of `validate_topology`, `src/topology.cpp:164-172`. -/
def validateHost (host : HostRecord) : Result Unit := do
  require (host.id ≠ .empty) ⟨.invalidIdentifier, "host identifier is empty"⟩
  checkLabels "host" [] host.labels

/-- The device loop of `validate_topology`, `src/topology.cpp:173-191`. -/
def validateDevice (t : TopologySnapshot) (device : DeviceRecord) : Result Unit := do
  require (device.id ≠ .empty) ⟨.invalidIdentifier, "device identifier is empty"⟩
  require (device.host ≠ .empty) ⟨.malformedInput, "device carries no host"⟩
  require ((t.findHost device.host).isSome = true)
    ⟨.unknownIdentity, "device references an unknown host: " ++ device.host.value.text⟩
  require device.incarnation.isSet ⟨.incarnationMismatch, "device incarnation is unset"⟩
  checkLabels "device" [] device.labels

/-- The link loop of `validate_topology`, `src/topology.cpp:192-199`. -/
def validateLink (t : TopologySnapshot) (link : LinkRecord) : Result Unit := do
  require (link.a ≠ link.b) ⟨.malformedInput, "link endpoints must differ"⟩
  require ((t.findDevice link.a).isSome = true ∧ (t.findDevice link.b).isSome = true)
    ⟨.unknownIdentity, "link references an unknown device"⟩

/-- `validate_topology`, `src/topology.cpp:130-201`. -/
def validateTopology (t : TopologySnapshot) (b : Bounds) : Result Unit := do
  b.validate
  require (Gen.isSet t.generation) ⟨.outOfRange, "topology generation is unset"⟩
  require t.provenance.isSet ⟨.provenanceMismatch, "topology provenance is unset"⟩
  checkFreshness t.freshness "topology"
  require (t.hosts ≠ []) ⟨.emptyInput, "topology carries no hosts"⟩
  require (t.hosts.length ≤ b.maxHosts.toNat)
    ⟨.limitExceeded, "topology host count exceeds bound"⟩
  require (t.devices.length ≤ b.maxDevices.toNat)
    ⟨.limitExceeded, "topology device count exceeds bound"⟩
  require (t.links.length ≤ (b.maxDevices * 8).toNat)
    ⟨.limitExceeded, "topology link count exceeds bound"⟩
  checkCanonicalOrder t
  t.hosts.forM validateHost
  t.devices.forM (validateDevice t)
  t.links.forM (validateLink t)

end OffloadFabric
